import ShapeGrammar.Proofs.Outline
import Mathlib.MeasureTheory.Measure.Lebesgue.Basic
/-!
# Resolving a label: lexical scope and weighted choice

`Grammar.find` resolves a label from a scope outward. The scopes it looks at are the rule and
its enclosing rules up to the root (`Grammar.scopes`): each scope is followed by the scope
that defines it (`Grammar.scopes_of_parent`). The first of them that defines rules of that
name decides, and the rules of inner scopes hide those of outer ones: the candidates are the
rules that scope defines under the label, in the order they were defined
(`Grammar.candidates_of_first`).

One candidate is taken without a draw. Among several, one double `u` is drawn and the
candidate taken is the first whose running total of weights exceeds `u` times the total, or
the last when none does (`Weighted.pick_cases`). In exact arithmetic, with positive weights,
the draws in `[0, 1)` that pick a candidate form an interval as long as its share of the total
weight (`Weighted.volume_pick`), so a candidate is taken with chance proportional to its weight.

The main statement, `Grammar.find_resolves_lexically_by_weight`, gathers these facts for every
filed grammar, hence for every compiled one (`Structure.compile_expands_script`).
-/

namespace ShapeGrammar

namespace Weighted

section Sum

variable {α : Type} [Add α] (w : Nat → α)

@[simp] theorem sumFrom_nil (acc : α) : sumFrom w acc [] = acc := rfl

@[simp] theorem sumFrom_cons (acc : α) (i : Nat) (cs : List Nat) :
    sumFrom w acc (i :: cs) = sumFrom w (acc + w i) cs := rfl

/-- The running totals a scan compares with: after the first `k + 1` candidates. -/
theorem sumFrom_take_succ_cons (acc : α) (i : Nat) (cs : List Nat) (k : Nat) :
    sumFrom w acc ((i :: cs).take (k + 1)) = sumFrom w (acc + w i) (cs.take k) := rfl

end Sum

section Scan

variable {α : Type} [Add α] [LT α] [DecidableLT α] (w : Nat → α)

/-- **The scan takes the least candidate whose running total passes the draw,** or none
when no running total does. -/
theorem firstPast_cases (d : α) :
    ∀ (cs : List Nat) (acc : α),
      (∃ i, IsLeast {i | i < cs.length ∧ d < sumFrom w acc (cs.take (i + 1))} i ∧
          firstPast w d acc cs = cs[i]?) ∨
        ((∀ i < cs.length, ¬ d < sumFrom w acc (cs.take (i + 1))) ∧ firstPast w d acc cs = none) := by
  intro cs
  induction cs with
  | nil => intro acc; exact .inr ⟨fun i hi => absurd hi (Nat.not_lt_zero i), rfl⟩
  | cons c rest ih =>
    intro acc
    by_cases hc : d < acc + w c
    · -- the first running total already passes the draw
      refine .inl ⟨0, ⟨⟨Nat.zero_lt_succ _, hc⟩, fun j _ => Nat.zero_le j⟩, ?_⟩
      simp [firstPast, hc]
    · have hfirst : firstPast w d acc (c :: rest) = firstPast w d (acc + w c) rest := by
        simp [firstPast, hc]
      -- past the first candidate, the scan goes on from its total
      rcases ih (acc + w c) with ⟨i, ⟨⟨hi, hd⟩, hleast⟩, heq⟩ | ⟨hnone, heq⟩
      · refine .inl ⟨i + 1, ⟨⟨by simpa using hi, hd⟩, fun j ⟨hj, hdj⟩ => ?_⟩, by simp [hfirst, heq]⟩
        cases j with
        | zero => exact absurd hdj hc
        | succ j => exact Nat.succ_le_succ (hleast ⟨by simpa using hj, hdj⟩)
      · refine .inr ⟨fun j hj hdj => ?_, by rw [hfirst, heq]⟩
        cases j with
        | zero => exact hc hdj
        | succ j => exact hnone j (by simpa using hj) hdj

end Scan

section Pick

variable {α : Type} [Zero α] [Add α] [Mul α] [LT α] [DecidableLT α] (w : Nat → α)

/-- A draw picks a candidate whenever there is one. -/
theorem pick_eq_none_iff (u : α) (cs : List Nat) : pick w u cs = none ↔ cs = [] := by
  unfold pick
  cases cs with
  | nil => simp [firstPast]
  | cons c rest => simp [List.getLast?_cons]

/-- **What a draw picks:** the least candidate whose running total of weights passes the draw
times the total, or the last candidate when no running total does. -/
theorem pick_cases (u : α) (cs : List Nat) :
    (∃ i, IsLeast {i | i < cs.length ∧ u * sumFrom w 0 cs < sumFrom w 0 (cs.take (i + 1))} i ∧
        pick w u cs = cs[i]?) ∨
      ((∀ i < cs.length, ¬ u * sumFrom w 0 cs < sumFrom w 0 (cs.take (i + 1))) ∧
        pick w u cs = cs.getLast?) := by
  unfold pick
  rcases firstPast_cases w (u * sumFrom w 0 cs) cs 0 with ⟨i, hi, heq⟩ | ⟨hnone, heq⟩
  · -- the least candidate is found, so the last one is not needed
    have hlt : i < cs.length := hi.1.1
    refine .inl ⟨i, hi, ?_⟩
    rw [heq, List.getElem?_eq_getElem hlt]
    rfl
  · exact .inr ⟨hnone, by rw [heq]; rfl⟩

end Pick

/-! ## In exact arithmetic -/

section Exact

variable (w : Nat → ℝ)

theorem sumFrom_eq_add_sum (acc : ℝ) (cs : List Nat) : sumFrom w acc cs = acc + (cs.map w).sum := by
  induction cs generalizing acc with
  | nil => simp
  | cons c rest ih => rw [sumFrom_cons, ih, List.map_cons, List.sum_cons, add_assoc]

/-- The total of the candidates before the `i`-th and of the `i`-th differ by its weight. -/
theorem sumFrom_take_succ (cs : List Nat) {i : Nat} (hi : i < cs.length) :
    sumFrom w 0 (cs.take (i + 1)) = sumFrom w 0 (cs.take i) + w cs[i] := by
  rw [sumFrom_eq_add_sum, sumFrom_eq_add_sum, List.take_add_one, List.getElem?_eq_getElem hi,
    Option.toList_some, List.map_append, List.sum_append]
  simp

/-- With weights that are not negative, running totals grow. -/
theorem sumFrom_take_mono (cs : List Nat) (hw : ∀ c ∈ cs, 0 ≤ w c) {i j : Nat} (hij : i ≤ j) :
    sumFrom w 0 (cs.take i) ≤ sumFrom w 0 (cs.take j) := by
  rw [sumFrom_eq_add_sum, sumFrom_eq_add_sum, zero_add, zero_add]
  obtain ⟨k, rfl⟩ := Nat.exists_eq_add_of_le hij
  rw [List.take_add, List.map_append, List.sum_append]
  refine le_add_of_nonneg_right (List.sum_nonneg fun x hx => ?_)
  obtain ⟨c, hc, rfl⟩ := List.mem_map.mp hx
  exact hw c (List.mem_of_mem_drop (List.mem_of_mem_take hc))

/-- Candidates of positive weight, at least one, have a positive total. -/
theorem sumFrom_pos {cs : List Nat} (hne : cs ≠ []) (hw : ∀ c ∈ cs, 0 < w c) : 0 < sumFrom w 0 cs := by
  rw [sumFrom_eq_add_sum, zero_add]
  refine List.sum_pos _ (fun x hx => ?_) (by simpa using hne)
  obtain ⟨c, hc, rfl⟩ := List.mem_map.mp hx
  exact hw c hc

/-- Among distinct candidates of positive weight, a draw `u` in `[0, 1)` picks the `i`-th
exactly when `u` times the total lies between the totals before and after it. -/
theorem pick_eq_getElem_iff (cs : List Nat) (hnd : cs.Nodup) (hw : ∀ c ∈ cs, 0 < w c)
    {i : Nat} (hi : i < cs.length) {u : ℝ} (hu : u ∈ Set.Ico (0 : ℝ) 1) :
    pick w u cs = some cs[i] ↔
      sumFrom w 0 (cs.take i) ≤ u * sumFrom w 0 cs ∧
        u * sumFrom w 0 cs < sumFrom w 0 (cs.take (i + 1)) := by
  have hw' : ∀ c ∈ cs, 0 ≤ w c := fun c hc => (hw c hc).le
  have hne : cs ≠ [] := List.ne_nil_of_length_pos (Nat.lt_of_le_of_lt (Nat.zero_le i) hi)
  have htotal := sumFrom_pos w hne hw
  -- the draw times the total is below the total, which the last running total reaches
  have hbelow : u * sumFrom w 0 cs < sumFrom w 0 (cs.take ((cs.length - 1) + 1)) := by
    rw [Nat.sub_add_cancel (List.length_pos_of_ne_nil hne), List.take_length]
    exact mul_lt_of_lt_one_left htotal hu.2
  rcases pick_cases w u cs with ⟨j, ⟨⟨hj, hdj⟩, hleast⟩, heq⟩ | ⟨hnone, -⟩
  · rw [heq, List.getElem?_eq_getElem hj, Option.some.injEq, hnd.getElem_inj_iff]
    constructor
    · rintro rfl
      refine ⟨?_, hdj⟩
      -- before the least one, no running total passes the draw
      cases j with
      | zero => simpa using mul_nonneg hu.1 htotal.le
      | succ k => exact not_lt.mp fun h => absurd (hleast ⟨Nat.lt_of_succ_lt hj, h⟩) (by omega)
    · rintro ⟨hlow, hhigh⟩
      refine Nat.le_antisymm (hleast ⟨hi, hhigh⟩) (not_lt.mp fun hji => ?_)
      have := sumFrom_take_mono w cs hw' (Nat.succ_le_of_lt hji)
      linarith
  · exact absurd hbelow (hnone _ (Nat.sub_lt (List.length_pos_of_ne_nil hne) Nat.one_pos))

/-- **A weighted draw picks a candidate with chance proportional to its weight.** Among
distinct candidates of positive weight, the draws in `[0, 1)` that pick the `i`-th form an
interval whose length is its weight's share of the total. -/
theorem volume_pick (cs : List Nat) (hnd : cs.Nodup) (hw : ∀ c ∈ cs, 0 < w c) {i : Nat}
    (hi : i < cs.length) :
    MeasureTheory.volume {u : ℝ | u ∈ Set.Ico 0 1 ∧ pick w u cs = some cs[i]} =
      ENNReal.ofReal (w cs[i] / sumFrom w 0 cs) := by
  have hw' : ∀ c ∈ cs, 0 ≤ w c := fun c hc => (hw c hc).le
  set W := sumFrom w 0 cs
  have hW : 0 < W := sumFrom_pos w (List.ne_nil_of_mem (List.getElem_mem hi)) hw
  have hlow : 0 ≤ sumFrom w 0 (cs.take i) := by
    simpa using sumFrom_take_mono w cs hw' (Nat.zero_le i)
  have hhigh : sumFrom w 0 (cs.take (i + 1)) ≤ W := by
    simpa [W] using sumFrom_take_mono w cs hw' (Nat.succ_le_of_lt hi)
  -- the draws that pick the `i`-th candidate lie between its two running totals
  have hset : {u : ℝ | u ∈ Set.Ico 0 1 ∧ pick w u cs = some cs[i]} =
      Set.Ico (sumFrom w 0 (cs.take i) / W) (sumFrom w 0 (cs.take (i + 1)) / W) := by
    ext u
    simp only [Set.mem_ofPred_eq, Set.mem_Ico]
    constructor
    · rintro ⟨hu, hpick⟩
      obtain ⟨h₁, h₂⟩ := (pick_eq_getElem_iff w cs hnd hw hi hu).mp hpick
      exact ⟨(div_le_iff₀ hW).mpr (by linarith), (lt_div_iff₀ hW).mpr (by linarith)⟩
    · rintro ⟨h₁, h₂⟩
      have h₁' := (div_le_iff₀ hW).mp h₁
      have h₂' := (lt_div_iff₀ hW).mp h₂
      have hu : u ∈ Set.Ico (0 : ℝ) 1 :=
        ⟨le_trans (div_nonneg hlow hW.le) h₁, lt_of_lt_of_le h₂ ((div_le_one hW).mpr hhigh)⟩
      exact ⟨hu, (pick_eq_getElem_iff w cs hnd hw hi hu).mpr ⟨by linarith, by linarith⟩⟩
  rw [hset, Real.volume_Ico, sumFrom_take_succ w cs hi]
  congr 1
  field_simp
  ring

end Exact

end Weighted

/-! ## The scopes a label is looked up in -/

namespace Grammar

variable {g : Grammar}

section ScopesFrom

variable {fuel s : Nat}

@[simp] theorem scopesFrom_zero (s : Nat) : g.scopesFrom 0 s = [] := rfl

theorem scopesFrom_succ_of_none (hs : g.rule? s = none) : g.scopesFrom (fuel + 1) s = [] := by
  simp [scopesFrom, hs]

theorem scopesFrom_succ_of_root {r : Rule} (hs : g.rule? s = some r) (hp : r.parent = none) :
    g.scopesFrom (fuel + 1) s = [s] := by
  simp [scopesFrom, hs, hp]

theorem scopesFrom_succ_of_parent {r : Rule} {p : Nat} (hs : g.rule? s = some r)
    (hp : r.parent = some p) : g.scopesFrom (fuel + 1) s = s :: g.scopesFrom fuel p := by
  simp [scopesFrom, hs, hp]

end ScopesFrom

/-- A walk out from a scope passes only rules there are. -/
theorem exists_rule_of_mem_scopesFrom :
    ∀ {fuel s t : Nat}, t ∈ g.scopesFrom fuel s → ∃ r, g.rule? t = some r
  | 0, _, _, h => absurd h List.not_mem_nil
  | fuel + 1, s, t, h => by
    cases hs : g.rule? s with
    | none => rw [scopesFrom_succ_of_none hs] at h; exact absurd h List.not_mem_nil
    | some r =>
      cases hp : r.parent with
      | none =>
        rw [scopesFrom_succ_of_root hs hp, List.mem_singleton] at h
        exact ⟨r, h ▸ hs⟩
      | some p =>
        rw [scopesFrom_succ_of_parent hs hp] at h
        rcases List.mem_cons.mp h with rfl | h
        · exact ⟨r, hs⟩
        · exact exists_rule_of_mem_scopesFrom h

/-- In a filed grammar a scope's parent comes before it. -/
theorem Filed.parent_lt_self (hg : g.Filed) {s p : Nat} {r : Rule} (hs : g.rule? s = some r)
    (hp : r.parent = some p) : p < s := by
  rcases Nat.eq_zero_or_pos s with rfl | hpos
  · rw [hg.root r hs] at hp
    cases hp
  · obtain ⟨p', hp', hlt⟩ := hg.parent_lt s r hs hpos
    rw [hp] at hp'
    cases hp'
    exact hlt

/-- In a filed grammar the walk out from a scope does not depend on its fuel once the fuel
exceeds the scope, since every parent comes before its child. -/
theorem Filed.scopesFrom_eq (hg : g.Filed) :
    ∀ {fuel fuel' s : Nat}, s < fuel → s < fuel' → g.scopesFrom fuel s = g.scopesFrom fuel' s
  | 0, _, _, h, _ => absurd h (Nat.not_lt_zero _)
  | _ + 1, 0, _, _, h => absurd h (Nat.not_lt_zero _)
  | fuel + 1, fuel' + 1, s, h, h' => by
    cases hs : g.rule? s with
    | none => rw [scopesFrom_succ_of_none hs, scopesFrom_succ_of_none hs]
    | some r =>
      cases hp : r.parent with
      | none => rw [scopesFrom_succ_of_root hs hp, scopesFrom_succ_of_root hs hp]
      | some p =>
        have hps := hg.parent_lt_self hs hp
        rw [scopesFrom_succ_of_parent hs hp, scopesFrom_succ_of_parent hs hp,
          hg.scopesFrom_eq (by omega : p < fuel) (by omega : p < fuel')]

/-- **A scope is followed by the scopes out from its parent;** the root, which has none, ends
the walk. -/
theorem Filed.scopes_eq (hg : g.Filed) {s : Nat} {r : Rule} (hs : g.rule? s = some r) :
    g.scopes s = s :: (r.parent.map g.scopes).getD [] := by
  unfold scopes
  cases hp : r.parent with
  | none => rw [scopesFrom_succ_of_root hs hp]; rfl
  | some p =>
    have hps := hg.parent_lt_self hs hp
    rw [scopesFrom_succ_of_parent hs hp, hg.scopesFrom_eq (by omega : p < s) (by omega : p < p + 1)]
    rfl

/-- A rule that a filed grammar files under a label is a rule that its scope defines. -/
theorem Filed.childrenNamed_eq (hg : g.Filed) {t : Nat} {r : Rule} (ht : g.rule? t = some r)
    (label : String) : r.childrenNamed label = g.definedIn t label :=
  hg.children t r label ht

/-- **Scopes that define nothing under the label are passed over; the first that does gives
the candidates,** the rules it defines under the label in the order they were defined. -/
theorem Filed.candidates_of_first (hg : g.Filed) {s : Nat} {label : String} {pre post : List Nat}
    {t : Nat} (hsplit : g.scopes s = pre ++ t :: post) (hpre : ∀ t' ∈ pre, g.definedIn t' label = [])
    (ht : g.definedIn t label ≠ []) : g.candidates s label = g.definedIn t label := by
  have hrule : ∀ x ∈ g.scopes s, ∃ r, g.rule? x = some r := fun _ hx => exists_rule_of_mem_scopesFrom hx
  obtain ⟨r, hr⟩ := hrule t (by rw [hsplit]; simp)
  unfold candidates
  rw [hsplit, List.findSome?_append, List.findSome?_cons,
    (List.findSome?_eq_none_iff).mpr fun x hx => ?_]
  · simp [hr, hg.childrenNamed_eq hr, ht]
  · -- no scope before `t` gives a candidate
    obtain ⟨r', hr'⟩ := hrule x (by rw [hsplit]; exact List.mem_append_left _ hx)
    simp [hr', hg.childrenNamed_eq hr', hpre x hx]

/-- Where no scope on the way out defines the label, there is no candidate. -/
theorem Filed.candidates_eq_nil (hg : g.Filed) {s : Nat} {label : String}
    (h : ∀ t ∈ g.scopes s, g.definedIn t label = []) : g.candidates s label = [] := by
  unfold candidates
  rw [(List.findSome?_eq_none_iff).mpr fun x hx => ?_]
  · rfl
  obtain ⟨r, hr⟩ := exists_rule_of_mem_scopesFrom hx
  simp [hr, hg.childrenNamed_eq hr, h x hx]

/-- The rules a scope defines under a label are distinct. -/
theorem nodup_definedIn (t : Nat) (label : String) : (g.definedIn t label).Nodup :=
  (List.nodup_range).filter _

/-- Where no scope on the way out defines the label, there is no candidate, and the other way
round. -/
theorem Filed.candidates_eq_nil_iff (hg : g.Filed) (s : Nat) (label : String) :
    g.candidates s label = [] ↔ ∀ t ∈ g.scopes s, g.definedIn t label = [] := by
  refine ⟨fun h t ht => ?_, hg.candidates_eq_nil⟩
  -- the first scope that defines the label, if any, would give candidates
  cases hfirst : (g.scopes s).find? (fun y => !(g.definedIn y label).isEmpty) with
  | none => simpa using List.find?_eq_none.mp hfirst t ht
  | some x =>
    obtain ⟨hx, pre, post, hsplit, hpre⟩ := List.find?_eq_some_iff_append.mp hfirst
    have hne : g.definedIn x label ≠ [] := by simpa using hx
    rw [hg.candidates_of_first hsplit (fun y hy => by simpa using hpre y hy) hne] at h
    exact absurd h hne

section Find

variable {s : Nat} {label : String} {tw : Twister}

theorem find_of_candidates_nil (h : g.candidates s label = []) : g.find s label tw = (none, tw) := by
  simp [find, h]

theorem find_of_candidates_single {c : Nat} (h : g.candidates s label = [c]) :
    g.find s label tw = (some c, tw) := by
  simp [find, h]

/-- Among several candidates one double is drawn, and the draw picks by weight. -/
theorem find_of_candidates_many {cs : List Nat} (h : g.candidates s label = cs) (hcs : 2 ≤ cs.length) :
    g.find s label tw = (Weighted.pick g.weightOf tw.next.1 cs, tw.next.2) := by
  match cs, hcs with
  | _ :: _ :: _, _ => simp [find, h]

/-- A lookup finds nothing, and draws nothing, exactly when there is no candidate. -/
theorem find_eq_none_iff : g.find s label tw = (none, tw) ↔ g.candidates s label = [] := by
  refine ⟨fun hf => ?_, find_of_candidates_nil⟩
  match h : g.candidates s label with
  | [] => rfl
  | [c] => rw [find_of_candidates_single h] at hf; cases hf
  | c₁ :: c₂ :: rest =>
    rw [find_of_candidates_many h (by simp)] at hf
    have hpick := (Weighted.pick_eq_none_iff g.weightOf tw.next.1 (c₁ :: c₂ :: rest)).not.mpr
      (List.cons_ne_nil _ _)
    exact absurd (congrArg Prod.fst hf) hpick

end Find

/-- **Weighted lexical lookup.** In a filed grammar, hence in every compiled one, a label is
looked up from scope `s` outward: each scope is followed by the scopes out from its parent,
and the root ends the walk. The lookup finds nothing, and draws nothing, exactly when no scope
on the way defines the label. Otherwise the first scope that does decides, whatever outer
scopes define: the candidates are the rules it defines under the label, in the order they were
defined. One candidate is taken without a draw. Among several, one double `u` is drawn, and the
least candidate whose running total of weights exceeds `u` times the total is taken, or the
last when none does. In exact arithmetic, with positive weights, the draws in `[0, 1)` that
take a candidate have as measure its share of the total weight. -/
theorem find_resolves_lexically_by_weight (g : Grammar) (hg : g.Filed) (s : Nat) (label : String)
    (tw : Twister) :
    (∀ t r, g.rule? t = some r → g.scopes t = t :: (r.parent.map g.scopes).getD []) ∧
    (g.find s label tw = (none, tw) ↔ ∀ t ∈ g.scopes s, g.definedIn t label = []) ∧
    ∀ pre t post cs, g.scopes s = pre ++ t :: post → (∀ t' ∈ pre, g.definedIn t' label = []) →
      g.definedIn t label = cs → cs ≠ [] →
        (∀ c, cs = [c] → g.find s label tw = (some c, tw)) ∧
        (2 ≤ cs.length →
          (∃ i, IsLeast {i | i < cs.length ∧ tw.next.1 * Weighted.sumFrom g.weightOf 0 cs <
                Weighted.sumFrom g.weightOf 0 (cs.take (i + 1))} i ∧
              g.find s label tw = (cs[i]?, tw.next.2)) ∨
            ((∀ i < cs.length, ¬ tw.next.1 * Weighted.sumFrom g.weightOf 0 cs <
                Weighted.sumFrom g.weightOf 0 (cs.take (i + 1))) ∧
              g.find s label tw = (cs.getLast?, tw.next.2))) ∧
        ∀ w : Nat → ℝ, (∀ c ∈ cs, 0 < w c) → ∀ i (hi : i < cs.length),
          MeasureTheory.volume {u : ℝ | u ∈ Set.Ico 0 1 ∧ Weighted.pick w u cs = some cs[i]} =
            ENNReal.ofReal (w cs[i] / Weighted.sumFrom w 0 cs) := by
  refine ⟨fun t r ht => hg.scopes_eq ht, find_eq_none_iff.trans (hg.candidates_eq_nil_iff s label),
    fun pre t post cs hsplit hpre hcs hne => ?_⟩
  have hcand : g.candidates s label = cs := (hg.candidates_of_first hsplit hpre (hcs ▸ hne)).trans hcs
  refine ⟨fun c hc => find_of_candidates_single (hcand.trans hc), fun hlen => ?_,
    fun w hw i hi => Weighted.volume_pick w cs (hcs ▸ nodup_definedIn t label) hw hi⟩
  -- several candidates: the one draw picks as `Weighted.pick` does
  rw [find_of_candidates_many hcand hlen]
  rcases Weighted.pick_cases g.weightOf tw.next.1 cs with ⟨i, hi, hpick⟩ | ⟨hnone, hpick⟩
  · exact .inl ⟨i, hi, by rw [hpick]⟩
  · exact .inr ⟨hnone, by rw [hpick]⟩

/-- Two rules named `R` at the top level, of weights 1 and 2, as `rule R { } rule R w 2 { }`
compiles. -/
def twoAlike : Grammar :=
  ((Grammar.empty.addRule 0 "R" 1.0 none none).1.addRule 0 "R" 2.0 none none).1

/-- Looking `R` up from the root of `twoAlike` draws one double, and in exact arithmetic takes
the rule of weight 2 with chance two thirds. -/
theorem two_alike_rules_draw_once :
    twoAlike.Filed ∧ twoAlike.definedIn 0 "R" = [1, 2] ∧
      (twoAlike.find 0 "R" (Twister.ofSeed 0)).2 = (Twister.ofSeed 0).next.2 ∧
      MeasureTheory.volume {u : ℝ | u ∈ Set.Ico 0 1 ∧ Weighted.pick (fun i => (i : ℝ)) u [1, 2] = some 2} =
        ENNReal.ofReal (2 / 3) := by
  have hg : twoAlike.Filed :=
    (filed_empty.addRule (by decide) _ _ _ _).addRule (by rw [size_addRule]; decide) _ _ _ _
  have hscopes : twoAlike.scopes 0 = [] ++ 0 :: [] := by decide +kernel
  have hdef : twoAlike.definedIn 0 "R" = [1, 2] := by decide +kernel
  obtain ⟨-, -, hfound⟩ := find_resolves_lexically_by_weight twoAlike hg 0 "R" (Twister.ofSeed 0)
  obtain ⟨-, hmany, hvolume⟩ := hfound [] 0 [] [1, 2] hscopes (by simp) hdef (by simp)
  refine ⟨hg, hdef, ?_, ?_⟩
  · rcases hmany (by simp) with ⟨i, -, hfind⟩ | ⟨-, hfind⟩ <;> rw [hfind]
  · have h := hvolume (fun i => (i : ℝ)) (by simp) 1 (by simp)
    norm_num [Weighted.sumFrom] at h
    norm_num [h]

end Grammar

end ShapeGrammar
