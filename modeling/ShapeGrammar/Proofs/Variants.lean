import ShapeGrammar.Proofs.Lookup
import Mathlib.Data.Real.Basic
import Mathlib.Algebra.Order.BigOperators.Group.List
import Mathlib.Algebra.BigOperators.Ring.List
/-!
# The variants of a rule are a weighted product

A rule whose body holds groups `( a | b w 2 )` stands for one rule without groups for every
choice of a branch in each group (`Statement.expand`). This module says what that list is.

The choices are the tuples of `Statement.tuplesOf`, one branch from each group's list taken in
the order of nested loops, the first group outermost, as a row of loops that extends every tuple
so far by each branch of the next group builds them. There are as many as the product of the
groups' sizes (`Statement.length_tuplesOf`). Each variant keeps the rule's name and options but
its weight, which is the rule's weight times the weights of the branches it took, from the left
(`Statement.choices_eq_map_tuplesOf`); its body is the rule's body with every statement in
place, the `j`-th group replaced by the terms of the `j`-th branch taken
(`Statement.substitute_eq_placed`).

In exact arithmetic the weights of the variants add up to the rule's weight times the product
of the groups' total weights (`Statement.sum_prod_tuplesOf`), so a choice by weight among the
variants takes each group's branch on its own, with chance its weight over its group's total
(`Statement.share_of_mem_tuplesOf`).
-/

namespace ShapeGrammar

namespace Script

namespace Statement

/-- The branch lists of the groups among statements, in order. -/
def groupsOf : List Statement → List (List Branch)
  | [] => []
  | .group branches :: rest => branches :: groupsOf rest
  | _ :: rest => groupsOf rest

/-- The statement is a group. -/
def isGroup : Statement → Bool
  | .group _ => true
  | _ => false

/-- All tuples with one element from each list, each list in turn extending every tuple so far
by each of its elements: the order of nested loops, the first list outermost. -/
def tuplesOf {α : Type} (pools : List (List α)) : List (List α) :=
  pools.foldl (fun tuples pool => tuples.flatMap fun t => pool.map fun x => t ++ [x]) [[]]

/-- What stands at position `p` of a body once its groups are replaced: the terms of the branch
taken for the group there, the `j`-th branch for the `j`-th group, or else the statement. -/
def placedAt (body : List Statement) (bs : List Branch) (p : Nat) : List Statement :=
  match body[p]? with
  | some (.group _) => ((bs[(body.take p).countP isGroup]?).map fun b => b.body.map .term).getD []
  | some s => [s]
  | none => []

/-! ## Tuples -/

section Tuples

variable {α : Type}

/-- Extending tuples by list after list is extending them by the tuples of those lists. -/
theorem foldl_extend (pools : List (List α)) (tuples : List (List α)) :
    pools.foldl (fun tuples pool => tuples.flatMap fun t => pool.map fun x => t ++ [x]) tuples =
      tuples.flatMap fun t => (tuplesOf pools).map (t ++ ·) := by
  induction pools generalizing tuples with
  | nil => simp [tuplesOf]
  | cons pool pools ih =>
    -- the first list turns the empty tuple into one tuple per element
    have hfirst : tuplesOf (pool :: pools) =
        (pool.map fun x => [x]).flatMap fun t => (tuplesOf pools).map (t ++ ·) := by
      rw [← ih]
      simp [tuplesOf]
    rw [List.foldl_cons, ih, hfirst]
    simp [List.flatMap_assoc, List.map_flatMap, List.flatMap_map, Function.comp_def]

/-- The tuples of a first list and more: each element of the first list, in order, followed
by each tuple of the rest. -/
theorem tuplesOf_cons (pool : List α) (pools : List (List α)) :
    tuplesOf (pool :: pools) = pool.flatMap fun x => (tuplesOf pools).map (x :: ·) := by
  rw [tuplesOf, List.foldl_cons, foldl_extend]
  simp [List.flatMap_map]

@[simp] theorem tuplesOf_nil : tuplesOf ([] : List (List α)) = [[]] := rfl

/-- There are as many tuples as the product of the lists' lengths. -/
theorem length_tuplesOf (pools : List (List α)) :
    (tuplesOf pools).length = (pools.map List.length).prod := by
  induction pools with
  | nil => rfl
  | cons pool pools ih =>
    rw [tuplesOf_cons, List.length_flatMap, List.map_cons, List.prod_cons]
    simp [ih, List.map_const', List.sum_replicate]

/-- A tuple holds one element of each list, in order. -/
theorem mem_tuplesOf {bs : List α} {pools : List (List α)} :
    bs ∈ tuplesOf pools ↔ List.Forall₂ (· ∈ ·) bs pools := by
  induction pools generalizing bs with
  | nil => simp
  | cons pool pools ih =>
    rw [tuplesOf_cons]
    cases bs with
    | nil => simp
    | cons b bs => simp [ih, and_comm]

/-- Each element of a tuple is taken from one of the lists. -/
theorem exists_mem_of_mem_tuplesOf {bs : List α} {pools : List (List α)} (h : bs ∈ tuplesOf pools)
    {b : α} (hb : b ∈ bs) : ∃ B ∈ pools, b ∈ B := by
  induction pools generalizing bs with
  | nil => simp_all
  | cons pool pools ih =>
    rw [tuplesOf_cons, List.mem_flatMap] at h
    obtain ⟨x, hx, t, ht, rfl⟩ := by simpa using h
    rcases List.mem_cons.mp hb with rfl | hb
    · exact ⟨pool, .head _, hx⟩
    · obtain ⟨B, hB, hbB⟩ := ih ht hb
      exact ⟨B, .tail _ hB, hbB⟩

/-- **In exact arithmetic the products over the tuples add up to the product of the sums.** -/
theorem sum_prod_tuplesOf (val : α → ℝ) (pools : List (List α)) :
    ((tuplesOf pools).map fun bs => (bs.map val).prod).sum = (pools.map fun B => (B.map val).sum).prod := by
  induction pools with
  | nil => simp
  | cons pool pools ih =>
    rw [tuplesOf_cons, List.map_flatMap, List.flatMap_def, List.sum_flatten, List.map_map,
      List.map_cons, List.prod_cons, ← ih, ← List.sum_map_mul_right]
    congr 1
    refine List.map_congr_left fun b _ => ?_
    rw [← List.sum_map_mul_left]
    simp [Function.comp_def]

end Tuples

/-! ## The variants -/

/-- **The choices of a body are the tuples of its groups' branch lists,** each weighing the
given weight times the weights of the branches taken, multiplied from the left. -/
theorem choices_eq_map_tuplesOf (weight : Float) (body : List Statement) :
    choices weight body =
      (tuplesOf (groupsOf body)).map fun bs => (bs.foldl (fun w b => w * b.weight) weight, bs) := by
  induction body generalizing weight with
  | nil => rfl
  | cons s rest ih =>
    cases s with
    | group branches =>
      simp only [choices, groupsOf, tuplesOf_cons, ih, List.map_flatMap, List.map_map]
      rfl
    | _ => simpa [choices, groupsOf] using ih weight

/-- Statements are placed one after another: the groups of the first ones take the first
branches. -/
theorem placedAt_cons_succ (s : Statement) (rest : List Statement) (bs : List Branch) (p : Nat) :
    placedAt (s :: rest) bs (p + 1) = placedAt rest (if s.isGroup then bs.drop 1 else bs) p := by
  cases s <;> simp [placedAt, isGroup, List.take_succ_cons, List.countP_cons]

/-- **Replacing the groups of a body keeps every statement in place:** a group is replaced by
the terms of the branch taken for it, the `j`-th branch for the `j`-th group, and every other
statement stands as it is. -/
theorem substitute_eq_placed (body : List Statement) (bs : List Branch) :
    substitute body bs = (List.range body.length).flatMap (placedAt body bs) := by
  induction body generalizing bs with
  | nil => rfl
  | cons s rest ih =>
    rw [List.length_cons, List.range_succ_eq_map, List.flatMap_cons, List.flatMap_map]
    simp only [placedAt_cons_succ]
    cases s with
    | group branches =>
      cases bs with
      | nil => rw [← ih]; simp [substitute, placedAt, isGroup]
      | cons b bs => rw [← ih]; simp [substitute, placedAt, isGroup]
    | _ => rw [← ih]; simp [substitute, placedAt, isGroup]

/-- A body without groups is its own substitute. -/
theorem substitute_of_groupsOf_nil {body : List Statement} (h : groupsOf body = []) :
    substitute body [] = body := by
  induction body with
  | nil => rfl
  | cons s rest ih => cases s <;> simp_all [groupsOf, substitute]

/-- In exact arithmetic, among positive weights, a tuple's product over the product of the
lists' sums is the product of each element's share of its list. -/
theorem share_of_mem_tuplesOf (val : Branch → ℝ) {pools : List (List Branch)}
    (hval : ∀ B ∈ pools, ∀ b ∈ B, 0 < val b) {bs : List Branch} (hbs : bs ∈ tuplesOf pools) :
    (bs.map val).prod / (pools.map fun B => (B.map val).sum).prod =
      ((bs.zip pools).map fun p => val p.1 / (p.2.map val).sum).prod := by
  induction (mem_tuplesOf.mp hbs) with
  | nil => simp
  | @cons b B bs pools hb _ ih =>
    have hpos : 0 < (B.map val).sum :=
      List.sum_pos _ (fun x hx => by
        obtain ⟨b', hb', rfl⟩ := List.mem_map.mp hx
        exact hval B (.head _) b' hb') (by simpa using List.ne_nil_of_mem hb)
    have hrest := ih (fun B' hB' => hval B' (.tail _ hB')) (mem_tuplesOf.mpr ‹_›)
    simp only [List.map_cons, List.prod_cons, List.zip_cons_cons]
    rw [← hrest, mul_div_mul_comm]

/-! ## Exact weights -/

section Exact

variable (val : Branch → ℝ)

/-- Weights multiplied in from the left make the first weight times the product of the rest. -/
theorem foldl_mul_eq_mul_prod (W : ℝ) (bs : List Branch) :
    bs.foldl (fun w b => w * val b) W = W * (bs.map val).prod := by
  induction bs generalizing W with
  | nil => simp
  | cons b bs ih => rw [List.foldl_cons, ih, List.map_cons, List.prod_cons, mul_assoc]

/-- The weights of the variants in exact arithmetic, by index: the rule's weight `W` times the
values of the branches the variant took, multiplied in as the program multiplies them. -/
def exactWeight (W : ℝ) (tuples : List (List Branch)) (j : Nat) : ℝ :=
  (tuples.getD j []).foldl (fun w b => w * val b) W

theorem exactWeight_of_lt (W : ℝ) (tuples : List (List Branch)) {j : Nat} (hj : j < tuples.length) :
    exactWeight val W tuples j = W * (tuples[j].map val).prod := by
  rw [exactWeight, List.getD_eq_getElem?_getD, List.getElem?_eq_getElem hj, Option.getD_some,
    foldl_mul_eq_mul_prod]

theorem map_exactWeight_range (W : ℝ) (tuples : List (List Branch)) :
    (List.range tuples.length).map (exactWeight val W tuples) =
      tuples.map fun bs => bs.foldl (fun w b => w * val b) W := by
  refine List.ext_getElem (by simp) fun j h₁ h₂ => ?_
  simp only [List.getElem_map, List.getElem_range]
  rw [exactWeight_of_lt val W tuples (by simpa using h₂), foldl_mul_eq_mul_prod]

/-- **In exact arithmetic the variants weigh the rule's weight times the product of the
groups' totals.** -/
theorem sum_exactWeight (W : ℝ) (pools : List (List Branch)) :
    ((tuplesOf pools).map fun bs => bs.foldl (fun w b => w * val b) W).sum =
      W * (pools.map fun B => (B.map val).sum).prod := by
  simp only [foldl_mul_eq_mul_prod]
  rw [List.sum_map_mul_left, sum_prod_tuplesOf]

/-- **A draw by exact weight among the variants takes each group's branch on its own:** the
chance of a variant is the product, over the groups, of its branch's share of its group. -/
theorem volume_pick_variant (W : ℝ) (hW : 0 < W) {pools : List (List Branch)}
    (hval : ∀ B ∈ pools, ∀ b ∈ B, 0 < val b) {i : Nat} (hi : i < (tuplesOf pools).length) :
    MeasureTheory.volume {u : ℝ | u ∈ Set.Ico 0 1 ∧
        Weighted.pick (exactWeight val W (tuplesOf pools)) u (List.range (tuplesOf pools).length) =
          some i} =
      ENNReal.ofReal ((((tuplesOf pools)[i]).zip pools).map fun p => val p.1 / (p.2.map val).sum).prod := by
  have hmem : ∀ j (hj : j < (tuplesOf pools).length), (tuplesOf pools)[j] ∈ tuplesOf pools :=
    fun j hj => List.getElem_mem hj
  -- every variant weighs more than nothing, as each of its factors does
  have hpos : ∀ j ∈ List.range (tuplesOf pools).length, 0 < exactWeight val W (tuplesOf pools) j := by
    intro j hj
    have hj' := List.mem_range.mp hj
    rw [exactWeight_of_lt val W _ hj']
    refine mul_pos hW (List.prod_pos fun x hx => ?_)
    obtain ⟨b, hb, rfl⟩ := List.mem_map.mp hx
    obtain ⟨B, hB, hbB⟩ := exists_mem_of_mem_tuplesOf (hmem j hj') hb
    exact hval B hB b hbB
  have hpick := Weighted.volume_pick (exactWeight val W (tuplesOf pools)) _ List.nodup_range hpos
    (i := i) (by simpa using hi)
  simp only [List.getElem_range] at hpick
  rw [hpick, Weighted.sumFrom_eq_add_sum, zero_add, map_exactWeight_range, sum_exactWeight,
    exactWeight_of_lt val W _ hi, mul_div_mul_left _ _ hW.ne',
    share_of_mem_tuplesOf val hval (hmem i hi)]

end Exact

/-! ## Expanding a rule -/

/-- **Expanding a rule is a weighted product.** A rule stands for one rule for every tuple of
branches, one from each of its groups, in the order of nested loops: as many as the product of
the groups' sizes. Each keeps the rule's name and options but its weight, the rule's weight
times the weights of the branches taken, and its body is the rule's body with each group
replaced in place by the terms of its branch. No variant has a group, and a rule without
groups stands for itself. In exact arithmetic the variants weigh the rule's weight times the
product of the groups' totals, and a draw by weight among them takes each group's branch on
its own, with chance its weight over its group's total. -/
theorem expand_is_weighted_product (name : String) (options : RuleOptions) (body : List Statement) :
    expand (.rule name options body) =
        (tuplesOf (groupsOf body)).map (fun bs =>
          .rule name { options with weight := bs.foldl (fun w b => w * b.weight) options.weight }
            ((List.range body.length).flatMap (placedAt body bs))) ∧
      (expand (.rule name options body)).length = ((groupsOf body).map List.length).prod ∧
      (∀ v ∈ expand (.rule name options body), ∃ opts b, v = .rule name opts b ∧ groupFree b) ∧
      (groupsOf body = [] → expand (.rule name options body) = [.rule name options body]) ∧
      ∀ (val : Branch → ℝ) (W : ℝ),
        ((tuplesOf (groupsOf body)).map fun bs => bs.foldl (fun w b => w * val b) W).sum =
            W * ((groupsOf body).map fun B => (B.map val).sum).prod ∧
          (0 < W → (∀ B ∈ groupsOf body, ∀ b ∈ B, 0 < val b) →
            ∀ i (hi : i < (tuplesOf (groupsOf body)).length),
              MeasureTheory.volume {u : ℝ | u ∈ Set.Ico 0 1 ∧
                  Weighted.pick (exactWeight val W (tuplesOf (groupsOf body))) u
                    (List.range (tuplesOf (groupsOf body)).length) = some i} =
                ENNReal.ofReal ((((tuplesOf (groupsOf body))[i]).zip (groupsOf body)).map
                  fun p => val p.1 / (p.2.map val).sum).prod) := by
  have hexpand : expand (.rule name options body) =
      (tuplesOf (groupsOf body)).map (fun bs =>
        .rule name { options with weight := bs.foldl (fun w b => w * b.weight) options.weight }
          (substitute body bs)) := by
    simp [expand, variants, choices_eq_map_tuplesOf]
  refine ⟨?_, ?_, ?_, ?_, fun val W => ⟨sum_exactWeight val W _, fun hW hval i hi =>
    volume_pick_variant val W hW hval hi⟩⟩
  · simp only [hexpand, substitute_eq_placed]
  · rw [hexpand, List.length_map, length_tuplesOf]
  · intro v hv
    rw [hexpand] at hv
    obtain ⟨bs, -, rfl⟩ := List.mem_map.mp hv
    exact ⟨_, _, rfl, groupFree_substitute body bs⟩
  · intro h
    rw [hexpand, h, tuplesOf_nil, List.map_singleton, List.foldl_nil, substitute_of_groupsOf_nil h]

/-- The rule `A w 2 { x ( B w 3 | C ) y ( D | E w 0.5 ) }`. -/
def twoGroups : List Statement :=
  [.term (.reference "x" none none),
    .group [⟨3, [.reference "B" none none]⟩, ⟨1, [.reference "C" none none]⟩],
    .term (.reference "y" none none),
    .group [⟨1, [.reference "D" none none]⟩, ⟨0.5, [.reference "E" none none]⟩]]

/-- The exact weights of the branches of `twoGroups`. -/
noncomputable def twoGroupsWeight (b : Branch) : ℝ :=
  if b.body = [.reference "B" none none] then 3
  else if b.body = [.reference "E" none none] then 1 / 2 else 1

/-- The rule `A w 2 { x ( B w 3 | C ) y ( D | E w 0.5 ) }` stands for four rules weighing
`6, 3, 2, 1`, and a draw takes the first, `A w 6 { x B y D }`, half the time. -/
theorem two_groups_expand_four_ways :
    (expand (.rule "A" ⟨2, none, none⟩ twoGroups)).length = 4 ∧
      ((tuplesOf (groupsOf twoGroups)).map fun bs => bs.foldl (fun w b => w * twoGroupsWeight b) 2) =
        [6, 3, 2, 1] ∧
      MeasureTheory.volume {u : ℝ | u ∈ Set.Ico 0 1 ∧
          Weighted.pick (exactWeight twoGroupsWeight 2 (tuplesOf (groupsOf twoGroups))) u
            (List.range 4) = some 0} = ENNReal.ofReal (1 / 2) := by
  have h := expand_is_weighted_product "A" ⟨2, none, none⟩ twoGroups
  have hgroups : groupsOf twoGroups =
      [[⟨3, [.reference "B" none none]⟩, ⟨1, [.reference "C" none none]⟩],
        [⟨1, [.reference "D" none none]⟩, ⟨0.5, [.reference "E" none none]⟩]] := rfl
  have hlen : (tuplesOf (groupsOf twoGroups)).length = 4 := by
    rw [length_tuplesOf, hgroups]; rfl
  refine ⟨by rw [h.2.1, hgroups]; rfl, ?_, ?_⟩
  · simp [hgroups, tuplesOf_cons, twoGroupsWeight]
    norm_num
  · have hp := (h.2.2.2.2 twoGroupsWeight 2).2 (by norm_num) (by
      rw [hgroups]; simp [twoGroupsWeight]) 0 (by rw [hlen]; decide)
    simp only [hlen] at hp
    rw [hp]
    congr 1
    simp [hgroups, tuplesOf_cons, twoGroupsWeight]
    norm_num

end Statement

end Script

end ShapeGrammar
