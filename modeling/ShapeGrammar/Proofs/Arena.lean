import ShapeGrammar.Structure
/-!
# The arena a compilation builds

Compiling a script grows a grammar one operation at a time: `Grammar.addRule` pushes a rule
with no body and files it among its parent's children, `Grammar.setBody` gives a rule the
chains of its nodes, and at the end `Grammar.rebind` binds all pool-bound paint to one pool.
This module says what each of these does to the blocks of the grammar (`Grammar.blocks`),
so that a property of every block compiled is checked one operation at a time, and that
cutting nodes into chains keeps every node, in order (`Chain.flatMap_nodes_ofNodes`).
-/

namespace ShapeGrammar

/-- Values that `mapM` gives are values of the function at elements of the list. -/
theorem mem_of_mapM_eq_ok {α β ε : Type} {f : α → Except ε β} :
    ∀ {l : List α} {ys : List β}, l.mapM f = .ok ys → ∀ y ∈ ys, ∃ x ∈ l, f x = .ok y := by
  intro l
  induction l with
  | nil =>
    intro ys h y hy
    cases h
    cases hy
  | cons x xs ih =>
    intro ys h y hy
    rw [List.mapM_cons] at h
    cases hx : f x with
    | error e => rw [hx] at h; cases h
    | ok z =>
      rw [hx] at h
      cases hxs : xs.mapM f with
      | error e => rw [hxs] at h; cases h
      | ok zs =>
        rw [hxs] at h
        cases h
        rcases List.mem_cons.mp hy with rfl | hy
        · exact ⟨x, List.mem_cons_self, hx⟩
        · obtain ⟨x', hx', hfx⟩ := ih hxs y hy
          exact ⟨x', List.mem_cons_of_mem _ hx', hfx⟩

/-- The delta with its pool-bound paint bound to `pool` instead: what `Grammar.rebind`
does to the delta of every block. -/
def Delta.rebind (pool : Pool) (d : Delta) : Delta :=
  { d with paint := d.paint.map (Paint.rebind pool) }

@[simp] theorem Rule.body_addChild (r : Rule) (name : String) (i : Nat) :
    (r.addChild name i).body = r.body := by
  unfold Rule.addChild
  split <;> rfl

namespace Chain

/-- A fold that ends a chain at each reference, collecting blocks until then, keeps the
nodes it folds, in order, in the chains it finished and the blocks still pending. -/
theorem flatMap_nodes_foldl {step : List Chain × List Block → Node → List Chain × List Block}
    (hblock : ∀ acc b, step acc (.block b) = (acc.1, acc.2 ++ [b]))
    (hreference : ∀ acc r, step acc (.reference r) = (acc.1 ++ [⟨acc.2, some r⟩], [])) :
    ∀ (ns : List Node) (acc : List Chain × List Block),
      (ns.foldl step acc).1.flatMap Chain.nodes ++ (ns.foldl step acc).2.map Node.block =
        acc.1.flatMap Chain.nodes ++ acc.2.map Node.block ++ ns := by
  intro ns
  induction ns with
  | nil => intro acc; simp
  | cons n ns ih =>
    intro acc
    cases n with
    | block b => simp [hblock, ih]
    | reference r => simp [hreference, ih, Chain.nodes]

/-- **Cutting nodes into chains keeps them all, in order.** -/
theorem flatMap_nodes_ofNodes (nodes : List Node) : (ofNodes nodes).flatMap Chain.nodes = nodes := by
  unfold ofNodes
  split
  rename_i chains pending hp
  have h := congrArg (fun r : List Chain × List Block => r.1.flatMap Chain.nodes ++ r.2.map Node.block) hp
  rw [flatMap_nodes_foldl (fun _ _ => rfl) (fun _ _ => rfl)] at h
  simp only [List.flatMap_nil, List.map_nil, List.append_nil, List.nil_append] at h
  -- blocks after the last reference make a last chain, if there are any
  split
  · rename_i hempty
    rw [List.isEmpty_iff.mp hempty] at h
    simpa using h.symm
  · simpa [Chain.nodes] using h.symm

theorem block_mem_of_mem_ofNodes {nodes : List Node} {c : Chain} (hc : c ∈ ofNodes nodes)
    {b : Block} (hb : b ∈ c.blocks) : Node.block b ∈ nodes := by
  rw [← flatMap_nodes_ofNodes nodes]
  exact List.mem_flatMap.mpr ⟨c, hc, List.mem_append_left _ (List.mem_map_of_mem hb)⟩

end Chain

namespace Grammar

/-- The blocks of all the rules' bodies. -/
def blocks (g : Grammar) : List Block := g.rules.toList.flatMap fun r => r.body.flatMap Chain.blocks

theorem mem_blocks {g : Grammar} {b : Block} :
    b ∈ g.blocks ↔ ∃ r ∈ g.rules.toList, ∃ c ∈ r.body, b ∈ c.blocks := by
  simp [blocks]

@[simp] theorem blocks_empty : Grammar.empty.blocks = [] := rfl

/-- Changing one element of a list keeps a property that the change keeps. -/
theorem forall_mem_modify {α : Type} (P : α → Prop) {l : List α} (hl : ∀ x ∈ l, P x) (i : Nat)
    {f : α → α} (hf : ∀ x, P x → P (f x)) : ∀ x ∈ l.modify i f, P x := by
  intro x hx
  obtain ⟨j, hj, rfl⟩ := List.getElem_of_mem hx
  rw [List.getElem_modify]
  split
  · exact hf _ (hl _ (List.getElem_mem _))
  · exact hl _ (List.getElem_mem _)

section Blocks

variable {P : Block → Prop} {g : Grammar}

/-- Setting a body whose blocks satisfy `P` keeps `P` of every block. -/
theorem blocks_setBody (hg : ∀ b ∈ g.blocks, P b) (i : Nat) {body : List Chain}
    (hbody : ∀ c ∈ body, ∀ b ∈ c.blocks, P b) : ∀ b ∈ (g.setBody i body).blocks, P b := by
  intro b hb
  obtain ⟨r, hr, c, hc, hb⟩ := mem_blocks.mp hb
  simp only [setBody, Array.toList_modify] at hr
  exact forall_mem_modify (fun r : Rule => ∀ c ∈ r.body, ∀ b ∈ c.blocks, P b)
    (fun r hr c hc b hb => hg b (mem_blocks.mpr ⟨r, hr, c, hc, hb⟩)) i (fun r _ => hbody) r hr c hc b hb

/-- Adding a rule adds no block: the rule has no body yet, and its parent keeps its own. -/
theorem blocks_addRule (hg : ∀ b ∈ g.blocks, P b) (parent : Nat) (name : String) (weight : Float)
    (maxDepth : Option Int) (fallback : Option String) :
    ∀ b ∈ (g.addRule parent name weight maxDepth fallback).1.blocks, P b := by
  intro b hb
  obtain ⟨r, hr, c, hc, hb⟩ := mem_blocks.mp hb
  simp only [addRule, Array.toList_modify, Array.toList_push] at hr
  refine forall_mem_modify (fun r : Rule => ∀ c ∈ r.body, ∀ b ∈ c.blocks, P b) ?_ parent ?_
    r hr c hc b hb
  · intro r hr
    rcases List.mem_append.mp hr with hr | hr
    · exact fun c hc b hb => hg b (mem_blocks.mpr ⟨r, hr, c, hc, hb⟩)
    · rw [List.mem_singleton.mp hr]
      intro c hc
      cases hc
  · intro r hr
    rw [Rule.body_addChild]
    exact hr

end Blocks

theorem blocks_rebind (g : Grammar) (pool : Pool) :
    (g.rebind pool).blocks = g.blocks.map fun b => { b with delta := b.delta.rebind pool } := by
  simp [blocks, rebind, List.map_flatMap, List.flatMap_map, Delta.rebind]

end Grammar

end ShapeGrammar
