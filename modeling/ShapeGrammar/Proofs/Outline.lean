import ShapeGrammar.Proofs.Expansion
import ShapeGrammar.Proofs.Placement
/-!
# The arena a compilation builds

A compiled grammar is the expanded rule tree of its script laid out in pre-order. Rule 0 is
the root scope with the terms at the top of the script; after it come the entries of
`Statement.arena`, each at its index: its name, the index of its parent, its options and the
shapes of its nodes, which are the terms of its variant's body, a transform applied no times
being applied once (`Grammar.outlines`). The rules are filed as lookups need them: every rule
but the root has a parent of smaller index, and a rule's children of a name are the rules of
that parent and name, in the order of their indices (`Grammar.Filed`).

The settings of the script are applied in the order of `Statement.appliedSettings`, each
without fault, a setting in a rule body once for each variant, and a variable's value is the
last one the script defines for it. `Structure.Expands` gathers these facts, and
`Structure.compile_expands_script` proves them of every compilation without fault.

Each fact is proved of `Draft.compileBody` for any rule being compiled into and any grammar
built so far, by induction along its recursion, from what one grammar operation does
(`outlines_addRule`, `outlines_setBody`, `Filed.addRule`, `Filed.setBody`).
-/

namespace ShapeGrammar

open Script Statement

theorem List.modify_append_of_lt {α : Type} (f : α → α) :
    ∀ {l₁ : List α} (l₂ : List α) {i : Nat}, i < l₁.length →
      (l₁ ++ l₂).modify i f = l₁.modify i f ++ l₂
  | [], _, _, h => absurd h (Nat.not_lt_zero _)
  | _ :: _, _, 0, _ => rfl
  | x :: l₁, l₂, i + 1, h => by
    simp only [List.cons_append, List.modify_succ_cons,
      List.modify_append_of_lt f l₂ (Nat.lt_of_succ_lt_succ h)]

theorem List.modify_length_append_singleton {α : Type} (f : α → α) :
    ∀ (l : List α) (x : α), (l ++ [x]).modify l.length f = l ++ [f x]
  | [], _ => rfl
  | y :: l, x => by simp [List.modify_length_append_singleton f l x]

/-- A rule as a script fixes it: its name, its parent, its options and the shapes of its
nodes. Its children follow from the parents of the other rules, and the deltas of its blocks
from their texts. -/
structure Outline where
  name : String
  parent : Option Nat
  weight : Float
  maxDepth : Option Int
  fallback : Option String
  nodes : List ((Nat × String) ⊕ Reference)

/-- The outline with other nodes. -/
def Outline.withNodes (nodes : List ((Nat × String) ⊕ Reference)) (o : Outline) : Outline :=
  { o with nodes := nodes }

/-- The outline of the root scope holding statements. -/
def Outline.root (ss : List Statement) : Outline :=
  ⟨Rule.rootName, none, 1.0, none, none, shapes ss⟩

/-- The outline of a rule of a grammar. -/
def Rule.outline (r : Rule) : Outline :=
  ⟨r.name, r.parent, r.weight, r.maxDepth, r.fallback, (r.body.flatMap Chain.nodes).map Node.shape⟩

/-- The outline of an entry of the expanded rule tree: its nodes are the terms of its body. -/
def Script.Entry.outline (e : Entry) : Outline :=
  ⟨e.name, some e.parent, e.options.weight, e.options.maxDepth, e.options.fallback, shapes e.body⟩

theorem Rule.outline_addChild (r : Rule) (name : String) (i : Nat) :
    (r.addChild name i).outline = r.outline := by
  unfold Rule.addChild
  split <;> rfl

@[simp] theorem Rule.parent_addChild (r : Rule) (name : String) (i : Nat) :
    (r.addChild name i).parent = r.parent := by
  unfold Rule.addChild
  split <;> rfl

@[simp] theorem Rule.name_addChild (r : Rule) (name : String) (i : Nat) :
    (r.addChild name i).name = r.name := by
  unfold Rule.addChild
  split <;> rfl

/-- The children a rule files under a name after one more: those before, then the new one if
the names agree. -/
theorem Rule.childrenNamed_addChild (r : Rule) (name n : String) (i : Nat) :
    (r.addChild name i).childrenNamed n = r.childrenNamed n ++ if name = n then [i] else [] := by
  unfold Rule.addChild Rule.childrenNamed
  split
  · -- the name has children: its entry grows, and every other entry stays
    rename_i hany
    have hkey : ((·.1 == n) ∘ fun e : String × List Nat =>
        if e.1 == name then (name, e.2 ++ [i]) else e) = (·.1 == n) := by
      funext e
      by_cases h : e.1 = name <;> simp [h]
    simp only [List.find?_map, hkey]
    by_cases hn : name = n
    · subst hn
      obtain ⟨e, he⟩ := Option.isSome_iff_exists.mp (List.find?_isSome.mpr (List.any_eq_true.mp hany))
      have hname : e.1 = name := by simpa using List.find?_some he
      simp [he, hname]
    · cases hf : r.children.find? (·.1 == n) with
      | none => simp [hn]
      | some e =>
        have hname : e.1 = n := by simpa using List.find?_some hf
        simp [hn, hname, Ne.symm hn]
  · -- a first child of the name opens a new entry at the end
    rename_i hany
    rw [List.find?_append]
    by_cases hn : name = n
    · subst hn
      have hnone : r.children.find? (·.1 == name) = none := by
        simp only [Bool.not_eq_true, List.any_eq_false, beq_iff_eq] at hany
        simpa [List.find?_eq_none] using fun a b hab hname => hany (a, b) hab hname
      simp [hnone]
    · simp [hn]

/-- What filing reads of a rule: its name, its parent and its children. -/
def Rule.filing (r : Rule) : String × Option Nat × List (String × List Nat) :=
  (r.name, r.parent, r.children)

namespace Grammar

/-- The outlines of the rules, in the order of their indices. -/
def outlines (g : Grammar) : List Outline := g.rules.toList.map Rule.outline

theorem length_outlines (g : Grammar) : g.outlines.length = g.size := by
  simp [outlines, size]

theorem outlines_addRule (g : Grammar) (parent : Nat) (name : String) (weight : Float)
    (maxDepth : Option Int) (fallback : Option String) :
    (g.addRule parent name weight maxDepth fallback).1.outlines =
      g.outlines ++ [⟨name, some parent, weight, maxDepth, fallback, []⟩] := by
  simp only [outlines, addRule, ← Array.toList_map]
  rw [Array.map_modify_comm (k := id) fun r => Rule.outline_addChild r name g.rules.size]
  simp [Rule.outline]

theorem outlines_setBody (g : Grammar) (i : Nat) (body : List Chain) :
    (g.setBody i body).outlines =
      g.outlines.modify i (Outline.withNodes ((body.flatMap Chain.nodes).map Node.shape)) := by
  simp only [outlines, setBody, ← Array.toList_map]
  rw [Array.map_modify_comm (g := Rule.outline)
    (k := Outline.withNodes ((body.flatMap Chain.nodes).map Node.shape)) fun _ => rfl,
    Array.toList_modify]

theorem outlines_rebind (g : Grammar) (pool : Pool) : (g.rebind pool).outlines = g.outlines := by
  simp [outlines, rebind, Rule.outline, Chain.nodes, List.map_flatMap, List.flatMap_map,
    Function.comp_def, Node.shape]

/-- The indices of the rules defined in rule `p` under the name `n`, in increasing order. -/
def definedIn (g : Grammar) (p : Nat) (n : String) : List Nat :=
  (List.range g.size).filter fun i => (g.rule? i).any fun c => c.parent == some p && c.name == n

/-- A grammar whose rules are filed as lookups need them: the root has no parent, every other
rule has a parent of smaller index, and the children a rule files under a name are the rules
defined in it under that name, in increasing order. -/
structure Filed (g : Grammar) : Prop where
  root : ∀ r, g.rule? 0 = some r → r.parent = none
  parent_lt : ∀ i r, g.rule? i = some r → 0 < i → ∃ p, r.parent = some p ∧ p < i
  children : ∀ p r n, g.rule? p = some r → r.childrenNamed n = g.definedIn p n

theorem filed_empty : Grammar.empty.Filed where
  root r h := by
    cases h
    rfl
  parent_lt i r h hi := by
    obtain ⟨i, rfl⟩ := Nat.exists_eq_add_of_lt hi
    cases h
  children p r n h := by
    cases p with
    | zero =>
      cases h
      rfl
    | succ p => cases h

namespace Filed

variable {g : Grammar}

/-- Filing reads a grammar's size and what filing reads of each rule. -/
theorem of_filing {g' : Grammar} (hg : g.Filed) (hsize : g'.size = g.size)
    (h : ∀ j, (g'.rule? j).map Rule.filing = (g.rule? j).map Rule.filing) : g'.Filed := by
  have key : ∀ j r', g'.rule? j = some r' → ∃ r, g.rule? j = some r ∧
      r.name = r'.name ∧ r.parent = r'.parent ∧ r.children = r'.children := by
    intro j r' h'
    have e := h j
    rw [h', Option.map_some] at e
    obtain ⟨r, hr, e⟩ := Option.map_eq_some_iff.mp e.symm
    simp only [Rule.filing, Prod.mk.injEq] at e
    exact ⟨r, hr, e⟩
  have hdefined : ∀ p n, g'.definedIn p n = g.definedIn p n := by
    intro p n
    unfold definedIn
    rw [hsize]
    congr 1
    funext i
    have e := congrArg (Option.any fun c : String × Option Nat × List (String × List Nat) =>
      c.2.1 == some p && c.1 == n) (h i)
    cases h₁ : g'.rule? i <;> cases h₂ : g.rule? i <;> simp_all [Rule.filing]
  refine ⟨fun r hr => ?_, fun i r hr hi => ?_, fun p r n hr => ?_⟩
  · obtain ⟨r₀, h₀, -, hparent, -⟩ := key 0 r hr
    rw [← hparent]
    exact hg.root r₀ h₀
  · obtain ⟨r₀, h₀, -, hparent, -⟩ := key i r hr
    rw [← hparent]
    exact hg.parent_lt i r₀ h₀ hi
  · obtain ⟨r₀, h₀, -, -, hchildren⟩ := key p r hr
    rw [hdefined, ← hg.children p r₀ n h₀]
    unfold Rule.childrenNamed
    rw [hchildren]

theorem setBody (hg : g.Filed) (i : Nat) (body : List Chain) : (g.setBody i body).Filed := by
  refine hg.of_filing (by simp [Grammar.setBody, size]) fun j => ?_
  simp only [rule?, Grammar.setBody, Array.getElem?_modify]
  split
  · cases g.rules[j]? <;> rfl
  · rfl

theorem rebind (hg : g.Filed) (pool : Pool) : (g.rebind pool).Filed := by
  refine hg.of_filing (by simp [Grammar.rebind, size]) fun j => ?_
  simp only [rule?, Grammar.rebind, Array.getElem?_map, Option.map_map]
  cases g.rules[j]? <;> rfl

/-- No rule is defined in a rule still to come. -/
theorem definedIn_size (hg : g.Filed) (n : String) : g.definedIn g.size n = [] := by
  unfold definedIn
  refine List.filter_eq_nil_iff.mpr fun i hi => ?_
  have hi : i < g.size := List.mem_range.mp hi
  cases hr : g.rule? i with
  | none => simp
  | some r =>
    -- the parent of a rule comes before it, and the root has none
    have hparent : r.parent ≠ some g.size := by
      rcases Nat.eq_zero_or_pos i with rfl | hpos
      · simp [hg.root r hr]
      · obtain ⟨p, hp, hlt⟩ := hg.parent_lt i r hr hpos
        rw [hp]
        intro e
        cases e
        omega
    simp [hparent]

end Filed

section AddRule

variable (g : Grammar) (parent : Nat) (name : String) (weight : Float) (maxDepth : Option Int)
  (fallback : Option String)

theorem size_addRule : (g.addRule parent name weight maxDepth fallback).1.size = g.size + 1 := by
  simp [addRule, size]

theorem rule?_addRule_of_lt {j : Nat} (hj : j < g.size) :
    (g.addRule parent name weight maxDepth fallback).1.rule? j =
      (g.rule? j).map fun r => if parent = j then r.addChild name g.size else r := by
  have hj' : j < g.rules.size := hj
  simp only [addRule, rule?, Array.getElem?_modify, Array.getElem?_push_lt hj]
  by_cases h : parent = j <;> simp [h, size, hj'] <;> rfl

theorem rule?_addRule_size (hp : parent < g.size) :
    (g.addRule parent name weight maxDepth fallback).1.rule? g.size =
      some ⟨name, some parent, weight, maxDepth, fallback, [], []⟩ := by
  simp only [addRule, rule?, Array.getElem?_modify]
  rw [if_neg (Nat.ne_of_lt hp)]
  exact Array.getElem?_push_size

theorem definedIn_addRule (hp : parent < g.size) (p : Nat) (n : String) :
    (g.addRule parent name weight maxDepth fallback).1.definedIn p n =
      g.definedIn p n ++ if parent = p ∧ name = n then [g.size] else [] := by
  unfold definedIn
  rw [size_addRule, List.range_succ, List.filter_append]
  congr 1
  · -- the rules there were keep their parents and names
    refine List.filter_congr fun i hi => ?_
    rw [rule?_addRule_of_lt g parent name weight maxDepth fallback (List.mem_range.mp hi)]
    cases g.rule? i with
    | none => rfl
    | some r => by_cases h : parent = i <;> simp [h, Rule.addChild]; split <;> rfl
  · simp only [List.filter_cons, List.filter_nil]
    rw [rule?_addRule_size g parent name weight maxDepth fallback hp]
    by_cases h : parent = p ∧ name = n <;> simp_all

end AddRule

theorem eq_addRule {g g' : Grammar} {parent : Nat} {name : String} {weight : Float}
    {maxDepth : Option Int} {fallback : Option String} {i : Nat}
    (h : g.addRule parent name weight maxDepth fallback = (g', i)) :
    g' = (g.addRule parent name weight maxDepth fallback).1 ∧ i = g.size := by
  rw [h]
  exact ⟨rfl, (congrArg Prod.snd h).symm⟩

theorem Filed.addRule {g : Grammar} (hg : g.Filed) {parent : Nat} (hp : parent < g.size)
    (name : String) (weight : Float) (maxDepth : Option Int) (fallback : Option String) :
    (g.addRule parent name weight maxDepth fallback).1.Filed := by
  -- a rule of the new grammar is an old one, its parent with one more child, or the new one
  have hcases : ∀ j r, (g.addRule parent name weight maxDepth fallback).1.rule? j = some r →
      (∃ r₀, g.rule? j = some r₀ ∧ r = if parent = j then r₀.addChild name g.size else r₀) ∨
        (j = g.size ∧ r = ⟨name, some parent, weight, maxDepth, fallback, [], []⟩) := by
    intro j r h
    rcases Nat.lt_or_ge j g.size with hj | hj
    · rw [rule?_addRule_of_lt g parent name weight maxDepth fallback hj] at h
      obtain ⟨r₀, h₀, rfl⟩ := Option.map_eq_some_iff.mp h
      exact .inl ⟨r₀, h₀, rfl⟩
    · rcases Nat.eq_or_lt_of_le hj with rfl | hj
      · rw [rule?_addRule_size g parent name weight maxDepth fallback hp] at h
        cases h
        exact .inr ⟨rfl, rfl⟩
      · have hsize := size_addRule g parent name weight maxDepth fallback
        have hnone : (g.addRule parent name weight maxDepth fallback).1.rule? j = none :=
          Array.getElem?_eq_none (by simp only [size] at hsize hj; omega)
        rw [hnone] at h
        cases h
  refine ⟨fun r hr => ?_, fun i r hr hi => ?_, fun q r n hr => ?_⟩
  · rcases hcases 0 r hr with ⟨r₀, h₀, rfl⟩ | ⟨h0, -⟩
    · split <;> simp [hg.root r₀ h₀]
    · omega
  · rcases hcases i r hr with ⟨r₀, h₀, rfl⟩ | ⟨rfl, rfl⟩
    · obtain ⟨p, hp', hlt⟩ := hg.parent_lt i r₀ h₀ hi
      exact ⟨p, by split <;> simp [hp'], hlt⟩
    · exact ⟨parent, rfl, hp⟩
  · rw [definedIn_addRule g parent name weight maxDepth fallback hp]
    rcases hcases q r hr with ⟨r₀, h₀, rfl⟩ | ⟨rfl, rfl⟩
    · by_cases hpq : parent = q
      · simp [hpq, Rule.childrenNamed_addChild, hg.children q r₀ n h₀]
      · simp [hpq, hg.children q r₀ n h₀]
    · -- the new rule defines nothing yet, and nothing was defined in it
      rw [hg.definedIn_size n]
      simp [Rule.childrenNamed, Nat.ne_of_lt hp]

end Grammar

namespace Outcome

/-- Operations applied one after another, each taking a property of the elements folded so
far to the same property with its own element added: the fold has the property of all. -/
theorem Holds.foldl_prefix {α γ : Type} {Q : List γ → α → Prop} {step : Outcome α → γ → Outcome α}
    (hstep : ∀ pre acc x, acc.Holds (Q pre) → (step acc x).Holds (Q (pre ++ [x]))) :
    ∀ (xs pre : List γ) (acc : Outcome α), acc.Holds (Q pre) →
      (xs.foldl step acc).Holds (Q (pre ++ xs)) := by
  intro xs
  induction xs with
  | nil => intro pre acc h; simpa using h
  | cons x xs ih =>
    intro pre acc h
    simpa using ih (pre ++ [x]) _ (hstep pre acc x h)

end Outcome

namespace Settings

/-- Settings applied one after another, each without fault; none where one faults. -/
def applyAll (s : Settings) (kvs : List (String × String)) : Option Settings :=
  kvs.foldlM (fun s kv => (s.set kv.1 kv.2).toExcept.toOption) s

@[simp] theorem applyAll_nil (s : Settings) : s.applyAll [] = some s := rfl

theorem applyAll_append (s : Settings) (xs ys : List (String × String)) :
    s.applyAll (xs ++ ys) = (s.applyAll xs).bind (·.applyAll ys) := by
  simp [applyAll, List.foldlM_append]

theorem applyAll_cons_of_set {s : Settings} {key value : String} (h : (s.set key value).fault = none)
    (kvs : List (String × String)) :
    s.applyAll ((key, value) :: kvs) = (s.set key value).state.applyAll kvs := by
  simp [applyAll, Outcome.toExcept, h, Except.toOption]

end Settings

namespace Draft

variable (vars : Variables)

/-- **Compiling keeps a grammar filed,** into any rule there is, and never removes a rule. -/
theorem compileBody_filed (rule : Nat) (picks : List Branch) (nodes : List Node)
    (ss : List Statement) (d : Draft) (hrule : rule < d.grammar.size) (hg : d.grammar.Filed) :
    (compileBody vars rule picks nodes ss d).Holds
      fun d' => d'.grammar.Filed ∧ d.grammar.size ≤ d'.grammar.size := by
  fun_induction compileBody vars rule picks nodes ss d with
  | case1 => exact Outcome.holds_done ⟨hg.setBody _ _, by simp [Grammar.setBody, Grammar.size]⟩
  | case2 _ _ _ _ _ _ _ ih => exact ih hrule hg
  | case3 _ _ _ _ _ _ _ ih => exact (Outcome.holds_true _).andThen fun s _ => ih s hrule hg
  | case4 r _ _ d name options body rest defined ih₂ ih₁ =>
    unfold defined
    refine Outcome.Holds.andThen (P := fun a => a.grammar.Filed ∧ d.grammar.size ≤ a.grammar.size)
      ?_ fun a ha => (ih₁ a (by omega) ha.1).imp fun _ h => ⟨h.1, by omega⟩
    -- each variant adds a rule to the rule compiled into, and compiles its body into that
    refine Outcome.Holds.foldl (fun acc x hacc => ?_) _ _ (Outcome.holds_done ⟨hg, Nat.le_refl _⟩)
    obtain ⟨w, bs⟩ := x
    refine hacc.andThen fun a ha => ?_
    split
    rename_i g i hgi
    obtain ⟨rfl, rfl⟩ := Grammar.eq_addRule hgi
    refine (ih₂ bs a _ _ (by dsimp only; rw [Grammar.size_addRule]; omega)
      (ha.1.addRule (by omega) _ _ _ _)).imp fun _ h => ⟨h.1, ?_⟩
    have h₂ := h.2
    dsimp only at h₂
    rw [Grammar.size_addRule] at h₂
    omega
  | case5 _ _ _ _ _ _ _ _ ih => exact ih hrule hg
  | case6 => exact Outcome.holds_failed _ _
  | case7 _ _ d _ _ _ _ _ hns ih =>
    rw [Draft.mapM_node_attach] at hns
    rw [hns]
    exact ih hrule hg
  | case8 _ _ d _ _ _ _ _ hf =>
    rw [Draft.mapM_node_attach] at hf
    rw [hf]
    exact Outcome.holds_failed _ _
  | case9 _ _ _ _ _ ih => exact ih hrule hg

/-- The node of a term has the term's shape. -/
theorem shape_of_node {d : Draft} {t : Term} {n : Node} (h : d.node vars t = .ok n) :
    n.shape = t.shape := by
  cases t with
  | transform count ops _ =>
    obtain ⟨delta, -, rfl⟩ := Except.exists_of_map_eq_ok h
    rfl
  | reference name option param =>
    cases h
    rfl

theorem shapes_of_mapM {d : Draft} :
    ∀ {ts : List Term} {ns : List Node}, ts.mapM (d.node vars) = .ok ns →
      ns.map Node.shape = ts.map Term.shape
  | [], ns, h => by
    cases h
    rfl
  | t :: ts, ns, h => by
    rw [List.mapM_cons] at h
    cases hn : d.node vars t with
    | error e => rw [hn] at h; cases h
    | ok n =>
      cases hns : ts.mapM (d.node vars) with
      | error e => rw [hn, hns] at h; cases h
      | ok ns' =>
        rw [hn, hns] at h
        cases h
        simp [shape_of_node vars hn, shapes_of_mapM hns]

/-- The variants of a rule, compiled one after another, each add their rule to the grammar,
followed by the rules of its body, as the expanded rule tree lists them. -/
theorem variants_outlines (r : Nat) (name : String) (options : RuleOptions) (body : List Statement)
    (d : Draft) {cstep : Outcome Draft → Float × List Branch → Outcome Draft}
    {sstep : List Entry → Float × List Statement → List Entry}
    (hc : ∀ acc w bs, cstep acc (w, bs) = acc.andThen id fun a =>
      compileBody vars a.grammar.size bs [] body
        { a with grammar := (a.grammar.addRule r name w options.maxDepth options.fallback).1 })
    (hs : ∀ acc v, sstep acc v = acc ++ ⟨name, r, { options with weight := v.1 }, v.2⟩ ::
      arena (d.grammar.size + acc.length) (d.grammar.size + acc.length + 1) body)
    (hbody : ∀ bs (a : Draft) (g : Grammar) (i : Nat), i < g.size →
      (compileBody vars i bs [] body { a with grammar := g }).Holds fun d' =>
        d'.grammar.outlines = g.outlines.modify i
            (Outline.withNodes ([].map Node.shape ++ shapes (substitute body bs))) ++
          (arena i g.size body).map Entry.outline) :
    ((choices options.weight body).foldl cstep (.done d)).Holds fun a =>
      a.grammar.outlines = d.grammar.outlines ++
        ((variants options.weight body).foldl sstep []).map Entry.outline := by
  have h := @Outcome.Holds.foldl_prefix _ _ (fun pre (a : Draft) => a.grammar.outlines =
      d.grammar.outlines ++ (((pre.map fun c => (c.1, substitute body c.2)).foldl sstep []).map
        Entry.outline)) cstep ?_ (choices options.weight body) [] (.done d)
    (Outcome.holds_done (by simp))
  · simpa [variants] using h
  intro pre acc x hacc
  obtain ⟨w, bs⟩ := x
  rw [hc]
  refine hacc.andThen fun a ha => ?_
  have hlen := congrArg List.length ha
  simp only [Grammar.length_outlines, List.length_append, List.length_map] at hlen
  refine (hbody bs a _ a.grammar.size (by simp [Grammar.size_addRule])).imp fun d' h => ?_
  rw [h, Grammar.outlines_addRule, ← Grammar.length_outlines, List.modify_length_append_singleton,
    Grammar.length_outlines, Grammar.size_addRule, ha]
  simp [List.foldl_append, hs, hlen, Entry.outline, Outline.withNodes]

/-- **Statements compiled without fault into a rule give it the shapes of its nodes and add the
rules of their expanded rule tree after the rules there were, in pre-order.** -/
theorem compileBody_outlines (rule : Nat) (picks : List Branch) (nodes : List Node)
    (ss : List Statement) (d : Draft) (hrule : rule < d.grammar.size) :
    (compileBody vars rule picks nodes ss d).Holds fun d' =>
      d'.grammar.outlines = d.grammar.outlines.modify rule
          (Outline.withNodes (nodes.map Node.shape ++ shapes (substitute ss picks))) ++
        (arena rule d.grammar.size ss).map Entry.outline := by
  fun_induction compileBody vars rule picks nodes ss d with
  | case1 =>
    refine Outcome.holds_done ?_
    simp [Grammar.outlines_setBody, Chain.flatMap_nodes_ofNodes, substitute, arena]
  | case2 _ _ _ _ _ _ _ ih => simpa [substitute, arena, term?] using ih hrule
  | case3 _ _ _ _ _ _ _ ih =>
    exact (Outcome.holds_true _).andThen fun s _ => by simpa [substitute, arena, term?] using ih s hrule
  | case4 r _ _ d name options body rest defined ih₂ ih₁ =>
    unfold defined
    refine (variants_outlines vars r name options body d (fun _ _ _ => rfl) (fun _ _ => rfl)
      ih₂).andThen fun d₁ h₁ => ?_
    have hlen := congrArg List.length h₁
    simp only [Grammar.length_outlines, List.length_append, List.length_map] at hlen
    refine (ih₁ d₁ (by omega)).imp fun d' h => ?_
    rw [h, h₁, List.modify_append_of_lt _ _ (by rw [Grammar.length_outlines]; exact hrule), hlen]
    simp [substitute, arena, term?]
  | case5 _ _ _ _ _ _ _ hn ih => simpa [substitute, arena, term?, shape_of_node vars hn] using ih hrule
  | case6 => exact Outcome.holds_failed _ _
  | case7 _ _ d _ _ _ _ _ hns ih =>
    rw [Draft.mapM_node_attach] at hns
    rw [hns]
    simpa [substitute, arena, shapes_of_mapM vars hns] using ih hrule
  | case8 _ _ d _ _ _ _ _ hf =>
    rw [Draft.mapM_node_attach] at hf
    rw [hf]
    exact Outcome.holds_failed _ _
  | case9 _ _ _ _ _ ih => simpa [substitute, arena] using ih hrule

/-- **Statements compiled without fault apply their settings in pre-order,** those of a rule
body once for each variant, each without fault. -/
theorem compileBody_applies (rule : Nat) (picks : List Branch) (nodes : List Node)
    (ss : List Statement) (d : Draft) :
    (compileBody vars rule picks nodes ss d).Holds fun d' =>
      d.settings.applyAll (appliedSettings ss) = some d'.settings := by
  fun_induction compileBody vars rule picks nodes ss d with
  | case1 => exact Outcome.holds_done (by simp)
  | case2 _ _ _ _ _ _ _ ih => simpa using ih
  | case3 _ _ _ d key value rest ih =>
    refine Outcome.Holds.andThen
      (P := fun s => (d.settings.set key value).fault = none ∧ (d.settings.set key value).state = s)
      (fun hf => ⟨hf, rfl⟩) fun s hs => (ih s).imp fun d' h => ?_
    rw [appliedSettings_setting, Settings.applyAll_cons_of_set hs.1, hs.2]
    exact h
  | case4 r _ _ d name options body rest defined ih₂ ih₁ =>
    unfold defined
    refine Outcome.Holds.andThen (P := fun a => d.settings.applyAll
        ((choices options.weight body).flatMap fun _ => appliedSettings body) = some a.settings)
      ?_ fun d₁ h₁ => (ih₁ d₁).imp fun d' h => ?_
    · -- after some variants, the body's settings have been applied once for each of them
      refine Outcome.Holds.foldl_prefix (Q := fun pre (a : Draft) =>
          d.settings.applyAll (pre.flatMap fun _ => appliedSettings body) = some a.settings)
        (fun pre acc x hacc => ?_) _ [] _ (Outcome.holds_done (by simp))
      obtain ⟨w, bs⟩ := x
      refine hacc.andThen fun a ha => ?_
      split
      rename_i g i _
      refine (ih₂ bs a g i).imp fun d' h => ?_
      rw [List.flatMap_append, Settings.applyAll_append, ha]
      simpa using h
    · rw [appliedSettings_rule, Settings.applyAll_append, h₁]
      exact h
  | case5 _ _ _ _ _ _ _ _ ih => simpa using ih
  | case6 => exact Outcome.holds_failed _ _
  | case7 _ _ d _ _ _ _ _ hns ih =>
    rw [Draft.mapM_node_attach] at hns
    rw [hns]
    simpa using ih
  | case8 _ _ d _ _ _ _ _ hf =>
    rw [Draft.mapM_node_attach] at hf
    rw [hf]
    exact Outcome.holds_failed _ _
  | case9 _ _ _ _ _ ih => simpa using ih

end Draft

namespace Structure

/-- A structure compiled from statements `ss` from the settings `s₀`: its grammar is filed, and
its rules are the root scope holding the terms at the top of `ss` followed by the expanded rule
tree of `ss` in pre-order; no group stands at the top of `ss` nor in an expanded body; its
settings are those of `ss` applied to `s₀` in pre-order, each without fault; and a variable's
value is the last one that `ss` defines for it, rule bodies at their places. -/
structure Expands (s₀ : Settings) (ss : List Statement) (st : Structure) : Prop where
  grammar : ∃ g, st.grammar = some g ∧ g.Filed ∧
    g.outlines = Outline.root ss :: (arena 0 1 ss).map Entry.outline
  groups : groupFree ss ∧ ∀ e ∈ arena 0 1 ss, groupFree e.body
  settings : s₀.applyAll (appliedSettings ss) = some st.settings
  vars : ∀ name, st.vars.get? name = lastValue name (definitions ss)

/-- **A compilation without fault lays out the expanded rule tree of its script.** The script
parses, and the structure compiled expands its statements from the settings of the overrides:
rule 0 is the root scope with the script's top-level terms, every other rule is an entry of the
expanded rule tree at its index in pre-order, with its parent's index, its options and the
terms of its variant's body as nodes; parents come before their children, and each rule files
under a name exactly the rules defined in it under that name, in increasing order. -/
theorem compile_expands_script (st : Structure) (script : String) (seed : Int)
    (hf : (st.compile script seed).fault = none) :
    ∃ ss, parse script = .ok ss ∧
      Expands (Settings.ofOverrides st.overrides).state ss (st.compile script seed).state := by
  obtain ⟨ss, h⟩ := parse_of_compile hf
  obtain ⟨o, ho, hof, hst⟩ := compile_eq_of_ok h hf
  have hroot : (0 : Nat) < Grammar.empty.size := by decide
  have houtlines := (ho ▸ Draft.compileBody_outlines _ 0 [] [] ss _ hroot) hof
  have hfiled := (ho ▸ Draft.compileBody_filed _ 0 [] [] ss _ hroot Grammar.filed_empty) hof
  have happlies := (ho ▸ Draft.compileBody_applies _ 0 [] [] ss _) hof
  refine ⟨ss, h, ⟨_, by rw [hst], hfiled.1.rebind _, ?_⟩,
    ⟨(parse_groups h).1, groupFree_of_mem_arena 0 1 ss⟩, by rw [hst]; exact happlies,
    fun name => by rw [hst]; exact Variables.ofStatements_get? ss name⟩
  rw [Grammar.outlines_rebind, houtlines, shapes_substitute_nil]
  rfl

/-- A rule with two alternatives and a setting and a rule in its body compiles, and lays out its
expanded rule tree. -/
theorem alternatives_compile_expanded :
    ((Structure.mk [] {} Variables.empty none 0).compile
      "set maxdepth 5\nrule R { ( a | b w 2 ) set maxdepth 3 rule S { c } S }\nR" 0).fault = none ∧
    ∃ ss, parse "set maxdepth 5\nrule R { ( a | b w 2 ) set maxdepth 3 rule S { c } S }\nR" = .ok ss ∧
      Expands (Settings.ofOverrides []).state ss ((Structure.mk [] {} Variables.empty none 0).compile
        "set maxdepth 5\nrule R { ( a | b w 2 ) set maxdepth 3 rule S { c } S }\nR" 0).state := by
  have hf : ((Structure.mk [] {} Variables.empty none 0).compile
      "set maxdepth 5\nrule R { ( a | b w 2 ) set maxdepth 3 rule S { c } S }\nR" 0).fault = none := by
    decide +kernel
  exact ⟨hf, compile_expands_script _ _ _ hf⟩

end Structure

end ShapeGrammar
