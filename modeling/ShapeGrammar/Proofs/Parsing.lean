import ShapeGrammar.Structure
/-!
# The groups of a parsed script

A group offers alternatives inside a rule body. The reader refuses a group at the top of a
script, and a group is read up to its `)` with the branch being read at that moment added
to it, so no group it returns is empty (`parse_groups`). Both facts are what compiling
relies on without checking: a group at the top would have no rule to choose for, and an
empty group would give its rule no variant at all, so that the rule's body, with its
settings, would never be compiled (`Statement.choices_ne_nil`).
-/

namespace ShapeGrammar

theorem Except.exists_of_map_eq_ok {ε α β : Type} {f : α → β} {x : Except ε α} {b : β}
    (h : x.map f = .ok b) : ∃ a, x = .ok a ∧ f a = b := by
  cases x with
  | error e => cases h
  | ok a => exact ⟨a, rfl, Except.ok.inj h⟩

namespace Script

namespace Statement

/-- Every group of the statements, in rule bodies at any depth, offers a branch. -/
def groupsFilled : List Statement → Bool
  | [] => true
  | .group bs :: rest => !bs.isEmpty && groupsFilled rest
  | .rule _ _ body :: rest => groupsFilled body && groupsFilled rest
  | _ :: rest => groupsFilled rest

/-- No group stands among the statements themselves. -/
def groupFree : List Statement → Bool
  | [] => true
  | .group _ :: _ => false
  | _ :: rest => groupFree rest

@[simp] theorem groupsFilled_append (ss ts : List Statement) :
    groupsFilled (ss ++ ts) = (groupsFilled ss && groupsFilled ts) := by
  induction ss with
  | nil => simp [groupsFilled]
  | cons s ss ih =>
    cases s <;> simp [groupsFilled, ih, Bool.and_assoc]

@[simp] theorem groupFree_append (ss ts : List Statement) :
    groupFree (ss ++ ts) = (groupFree ss && groupFree ts) := by
  induction ss with
  | nil => simp [groupFree]
  | cons s ss ih =>
    cases s <;> simp [groupFree, ih]

/-- **A body whose groups all offer a branch has a variant.** -/
theorem choices_ne_nil (w : Float) {body : List Statement} (h : groupsFilled body) :
    choices w body ≠ [] := by
  induction body generalizing w with
  | nil => simp [choices]
  | cons s rest ih =>
    cases s with
    | group bs =>
      simp only [groupsFilled, Bool.and_eq_true, Bool.not_eq_true', List.isEmpty_eq_false_iff] at h
      obtain ⟨b, bs, rfl⟩ := List.exists_cons_of_ne_nil h.1
      simp [choices, ih _ h.2]
    | rule name options inner =>
      simp only [groupsFilled, Bool.and_eq_true] at h
      simpa [choices] using ih w h.2
    | define n v | setting k v | term t =>
      simpa [choices] using ih w (by simpa [groupsFilled] using h)

end Statement

open Statement

/-- A group read to its end has a branch: the one being read when it closes. -/
theorem readGroup_ne_nil {rd : Reader} {opening : Token} {branches : List Branch} {weight : Float}
    {items : List Term} {ts : List Token} {bs : List Branch} {r : Rest ts}
    (h : readGroup rd opening branches weight items ts = .ok (bs, r)) : bs ≠ [] := by
  fun_induction readGroup rd opening branches weight items ts generalizing bs
  case case3 =>
    cases h
    simp
  -- every other token either fails or reads on
  all_goals first
    | contradiction
    | obtain ⟨⟨bs', r'⟩, h', he⟩ := Except.exists_of_map_eq_ok h
      cases he
      rename_i ih
      exact ih h'

/-- Statements read into a body keep every group filled. -/
theorem readBody_groupsFilled {rd : Reader} {rule : Option (Token × String)} {acc : List Statement}
    {ts : List Token} {ss : List Statement} {r : Rest ts}
    (h : readBody rd rule acc ts = .ok (ss, r)) (hacc : groupsFilled acc) : groupsFilled ss := by
  fun_induction readBody rd rule acc ts generalizing ss
  -- a body that ends is the one read so far
  all_goals first
    | contradiction
    | (cases h; exact hacc)
    | skip
  all_goals
    obtain ⟨⟨ss', r'⟩, h', he⟩ := Except.exists_of_map_eq_ok h
    cases he
    rename_i ih
    refine ih h' ?_
  -- what is left is the statement just read, added to the body so far
  all_goals first
    | (simp [hacc, groupsFilled]; done)
    | (rename_i hinner ih₂
       have hin := ih₂ hinner (by simp [groupsFilled])
       simp [hacc, groupsFilled, hin])
    | (rename_i hgroup
       simp [hacc, groupsFilled, readGroup_ne_nil hgroup])

/-- Statements read at the top keep it free of groups: a group there is refused. -/
theorem readBody_groupFree {rd : Reader} {acc : List Statement} {ts : List Token}
    {ss : List Statement} {r : Rest ts}
    (h : readBody rd none acc ts = .ok (ss, r)) (hacc : groupFree acc) : groupFree ss := by
  generalize hrule : (none : Option (Token × String)) = rule at h
  fun_induction readBody rd rule acc ts generalizing ss
  all_goals first
    | contradiction
    | (cases h; exact hacc)
    | (cases hrule; done)
    | skip
  all_goals
    obtain ⟨⟨ss', r'⟩, h', he⟩ := Except.exists_of_map_eq_ok h
    cases he
    rename_i ih
    exact ih (by simp [hacc, groupFree]) hrule h'

/-- **A parsed script has no group at its top, and every group it has offers a branch.** -/
theorem parse_groups {script : String} {ss : List Statement} (h : parse script = .ok ss) :
    groupFree ss ∧ groupsFilled ss := by
  obtain ⟨⟨ss', r⟩, h', he⟩ := Except.exists_of_map_eq_ok h
  cases he
  exact ⟨readBody_groupFree h' (by simp [groupFree]), readBody_groupsFilled h' (by simp [groupsFilled])⟩

end Script

end ShapeGrammar
