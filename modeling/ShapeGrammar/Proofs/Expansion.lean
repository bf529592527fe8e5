import ShapeGrammar.Proofs.Parsing
/-!
# The rule tree a script stands for

Compiling a rule adds one rule for each variant of its body and compiles the variant into
it, the rules the body defines included, before the next statement; a group never stands
in a compiled body as a statement. This module says, without compiling, what that gives.

`Statement.arena` lists the rules that statements define once their groups are expanded,
in pre-order: each variant of a rule, in the order of `Statement.variants`, followed by the
rules its body defines. An entry's position in the list, counted from the index of the first,
is its index in the grammar, and it records the index of the rule that defines it. The body
of an entry has no group (`groupFree_of_mem_arena`), and the rules it defines are those of
the rule's own body, as expansion changes groups only (`arena_substitute`).

`Statement.appliedSettings` lists, in the same order, the settings that compiling applies:
those of a rule's body once for each variant. `Node.shape` and `Term.shape` say what a
compiled node keeps of its term: a transform applied no times is applied once.
-/

namespace ShapeGrammar

/-- A list built by appending, for each element in turn, a list made from the element and
what was built so far, holds only what the start and the appended lists hold. -/
theorem List.forall_mem_foldl_append {α β : Type} {Q : β → Prop} {f : List β → α → List β} :
    ∀ {xs : List α} {acc : List β}, (∀ e ∈ acc, Q e) → (∀ acc, ∀ x ∈ xs, ∀ e ∈ f acc x, Q e) →
      ∀ e ∈ xs.foldl (fun acc x => acc ++ f acc x) acc, Q e
  | [], _, hacc, _ => hacc
  | x :: xs, acc, hacc, hf => by
    have hstep : ∀ e ∈ acc ++ f acc x, Q e := by
      intro e he
      rcases List.mem_append.mp he with he | he
      · exact hacc e he
      · exact hf acc x (.head _) e he
    rw [List.foldl_cons]
    exact List.forall_mem_foldl_append hstep fun acc y hy => hf acc y (.tail _ hy)

/-- A node apart from its delta: a block's count and text, or a reference. -/
def Node.shape : Node → (Nat × String) ⊕ Reference
  | .block b => .inl (b.count, b.source)
  | .reference r => .inr r

namespace Script

/-- The node a term compiles to, apart from its delta. A transform is applied at least
once. -/
def Term.shape : Term → (Nat × String) ⊕ Reference
  | .transform count ops _ => .inl (max count 1, ops)
  | .reference name option param => .inr ⟨name, param, option⟩

/-- A rule of the expanded rule tree: one variant of a rule, the index of the rule whose body
defines it, and the variant's body. -/
structure Entry where
  name : String
  parent : Nat
  options : RuleOptions
  body : List Statement

namespace Statement

/-- The term a statement is, if it is one. -/
def term? : Statement → Option Term
  | .term t => some t
  | _ => none

/-- The shapes of the nodes that statements give a body: those of their terms, in order. -/
def shapes (ss : List Statement) : List ((Nat × String) ⊕ Reference) :=
  (ss.filterMap term?).map Term.shape

@[simp] theorem shapes_nil : shapes [] = [] := rfl

@[simp] theorem shapes_append (ss ts : List Statement) :
    shapes (ss ++ ts) = shapes ss ++ shapes ts := by
  simp [shapes]

@[simp] theorem shapes_cons (s : List Statement) (x : Statement) :
    shapes (x :: s) = ((term? x).map Term.shape).toList ++ shapes s := by
  cases x <;> rfl

@[simp] theorem shapes_map_term (ts : List Term) : shapes (ts.map .term) = ts.map Term.shape := by
  simp [shapes, term?, List.filterMap_map, Function.comp_def]

/-- The rules that statements define once their groups are expanded, in pre-order: each
variant of a rule followed by the rules its body defines. The first entry has index `next`,
and the rules at the top of the statements are defined by rule `parent`. -/
def arena (parent next : Nat) : List Statement → List Entry
  | [] => []
  | .rule name options body :: rest =>
    let here := (variants options.weight body).foldl
      (fun acc v => acc ++ ⟨name, parent, { options with weight := v.1 }, v.2⟩ ::
        arena (next + acc.length) (next + acc.length + 1) body) []
    here ++ arena parent (next + here.length) rest
  | .define _ _ :: rest | .setting _ _ :: rest | .term _ :: rest | .group _ :: rest =>
    arena parent next rest

/-- The settings that compiling statements applies, in order: those of a rule's body once
for each variant, as the variants are compiled one after another. -/
def appliedSettings : List Statement → List (String × String)
  | [] => []
  | .setting key value :: rest => (key, value) :: appliedSettings rest
  | .rule _ options body :: rest =>
    (choices options.weight body).flatMap (fun _ => appliedSettings body) ++ appliedSettings rest
  | .define _ _ :: rest | .term _ :: rest | .group _ :: rest => appliedSettings rest

section AppliedSettings

variable (rest : List Statement)

@[simp] theorem appliedSettings_nil : appliedSettings [] = [] := by simp [appliedSettings]

@[simp] theorem appliedSettings_define (n v : String) :
    appliedSettings (.define n v :: rest) = appliedSettings rest := by
  simp [appliedSettings]

@[simp] theorem appliedSettings_setting (key value : String) :
    appliedSettings (.setting key value :: rest) = (key, value) :: appliedSettings rest := by
  simp [appliedSettings]

@[simp] theorem appliedSettings_rule (name : String) (options : RuleOptions) (body : List Statement) :
    appliedSettings (.rule name options body :: rest) =
      (choices options.weight body).flatMap (fun _ => appliedSettings body) ++ appliedSettings rest := by
  simp [appliedSettings]

@[simp] theorem appliedSettings_term (t : Term) :
    appliedSettings (.term t :: rest) = appliedSettings rest := by
  simp [appliedSettings]

@[simp] theorem appliedSettings_group (bs : List Branch) :
    appliedSettings (.group bs :: rest) = appliedSettings rest := by
  simp [appliedSettings]

end AppliedSettings

theorem groupFree_map_term (ts : List Term) : groupFree (ts.map .term) := by
  induction ts with
  | nil => rfl
  | cons t ts ih => simpa [groupFree] using ih

/-- Replacing the groups of a body drops every group: the chosen branch stands in as terms,
and a group left without a choice is passed over. -/
theorem groupFree_substitute (body : List Statement) (bs : List Branch) :
    groupFree (substitute body bs) := by
  induction body generalizing bs with
  | nil => rfl
  | cons s rest ih =>
    cases s with
    | group => cases bs <;> simp [substitute, groupFree_map_term, ih]
    | _ => simpa [substitute, groupFree] using ih bs

/-- Terms of a body outside its groups are kept by replacing no group. -/
theorem shapes_substitute_nil (ss : List Statement) : shapes (substitute ss []) = shapes ss := by
  induction ss with
  | nil => rfl
  | cons s rest ih => cases s <;> simp [substitute, ih, term?]

theorem arena_map_term_append (parent next : Nat) (ts : List Term) (ss : List Statement) :
    arena parent next (ts.map .term ++ ss) = arena parent next ss := by
  induction ts with
  | nil => rfl
  | cons t ts ih => simpa [arena] using ih

/-- Expanding the groups of a body keeps the rules it defines. -/
theorem arena_substitute (parent next : Nat) (body : List Statement) (bs : List Branch) :
    arena parent next (substitute body bs) = arena parent next body := by
  induction body generalizing next bs with
  | nil => rfl
  | cons s rest ih =>
    cases s with
    | group => cases bs <;> simp [substitute, arena, arena_map_term_append, ih]
    | rule name options inner => simp only [substitute, arena, ih]
    | _ => simpa [substitute, arena] using ih next bs

/-- **No entry of the expanded rule tree has a group in its body.** -/
theorem groupFree_of_mem_arena (parent next : Nat) (ss : List Statement) :
    ∀ e ∈ arena parent next ss, groupFree e.body := by
  fun_induction arena parent next ss with
  | case1 => intro e he; cases he
  | case2 _ _ _ _ body _ here ih₂ ih₁ =>
    intro e he
    rcases List.mem_append.mp he with he | he
    · -- each variant's body is the rule's body with its groups replaced
      refine List.forall_mem_foldl_append (Q := fun e : Entry => groupFree e.body) (by simp)
        (fun acc v hv e he => ?_) e he
      rcases List.mem_cons.mp he with rfl | he
      · obtain ⟨⟨w, bs⟩, -, rfl⟩ := List.mem_map.mp hv
        exact groupFree_substitute body bs
      · exact ih₂ acc e he
    · exact ih₁ e he
  | case3 _ _ _ _ _ ih | case4 _ _ _ _ _ ih | case5 _ _ _ _ ih | case6 _ _ _ _ ih => exact ih

end Statement

end Script

end ShapeGrammar
