import ShapeGrammar.Script.Options
import ShapeGrammar.Proofs.Tiling
/-!
# Reading rule options

`Script.RuleOptions.read` finds the options of a rule head from left to right, each at the
first place where one fits, and refuses any text between them that is not blank. This file
says what it accepts and what it gives without the scanning loop.

* `Script.OptionsText cs items`: the text is blank runs and options in turn, each option the
  one `Script.optionAt` finds where the blanks before it end, and it ends in blanks. A text
  has at most one such reading (`Script.OptionsText.unique`).
* An item is read without fault (`Script.OptionItem.Valid`) when its key is `weight`, `w` or
  `@w`, or when it is `maxdepth`, `md` or `@` and its number is a finite double, which
  truncates to a whole depth.
* The options are then those of the later items winning over the earlier
  (`Script.RuleOptions.withLast`): the last weight, 1 if none; the last depth limit,
  truncated toward zero, none if none; the last fallback, none if none.

Main statement: `Script.RuleOptions.read_eq_ok_iff`, reading succeeds exactly on such texts,
with those options. A depth limit whose number is too large for a double fails the reading,
even where a later depth limit would win over it.
-/

namespace ShapeGrammar

namespace Script

open Text

/-! ## What one option takes -/

/-- A character of an option's key: a small ASCII letter or `@`. -/
def isKeyChar (c : Char) : Bool := ('a' ≤ c && c ≤ 'z') || c == '@'

theorem isKeyChar_of_isBlank {c : Char} (h : isBlank c = true) : isKeyChar c = false := by
  have hlt : c < 'a' ↔ c.toNat < 97 := Iff.rfl
  have hgt : 'z' < c ↔ 122 < c.toNat := Iff.rfl
  have hne : c ≠ '@' ↔ c.toNat ≠ 64 := not_congr Char.toNat_inj.symm
  simp only [isBlank] at h
  simp only [isKeyChar, Bool.or_eq_false_iff, Bool.and_eq_false_iff, decide_eq_false_iff_not,
    Char.not_le, beq_eq_false_iff_ne, hlt, hgt, hne]
  simp at h
  omega

theorem ne_fallback_of_isBlank {c : Char} (h : isBlank c = true) : c ≠ '>' := by
  rintro rfl
  cases h

/-- **No option starts at a blank.** -/
theorem optionAt_cons_blank {c : Char} (h : isBlank c = true) (cs : List Char) :
    optionAt (c :: cs) = none := by
  have hkey : span (fun c => ('a' ≤ c && c ≤ 'z') || c == '@') (c :: cs) = 0 := by
    simp only [span, List.takeWhile_cons, ← isKeyChar.eq_1, isKeyChar_of_isBlank h,
      Bool.false_eq_true, if_false, List.length_nil]
  unfold optionAt
  simp only [hkey, beq_self_eq_true, if_true, Option.orElse_none]
  split
  · rename_i rest hc
    exact absurd (List.cons.inj hc).1 (ne_fallback_of_isBlank h)
  · rfl

theorem signedLength_eq_some {cs : List Char} {n : Nat} (h : signedLength cs = some n) :
    0 < n ∧ n ≤ cs.length := by
  unfold signedLength at h
  split at h
  · rename_i rest
    obtain ⟨m, hm, rfl⟩ := Option.map_eq_some_iff.1 h
    have := decimalLength_eq_some hm
    simp only [List.length_cons]
    omega
  · exact decimalLength_eq_some h

/-- **An option takes at least one character**, and no more than there are. -/
theorem optionAt_length {cs : List Char} {item : OptionItem} {n : Nat}
    (h : optionAt cs = some (item, n)) : 0 < n ∧ n ≤ cs.length := by
  unfold optionAt at h
  dsimp only at h
  generalize hkey : span (fun c => ('a' ≤ c && c ≤ 'z') || c == '@') cs = key at h
  have hkey_le : key ≤ cs.length := hkey ▸ span_le_length _ cs
  rw [Option.orElse_eq_or] at h
  rcases Option.or_eq_some_iff.1 h with hk | ⟨-, hf⟩
  · -- a key, blanks and a signed number
    split at hk
    · cases hk
    · rename_i hk0
      generalize hstart : key + span isBlank (cs.drop key) = start at hk
      have hspan := span_le_length isBlank (cs.drop key)
      rw [List.length_drop] at hspan
      obtain ⟨m, hm, hmn⟩ := Option.map_eq_some_iff.1 hk
      cases hmn
      have := signedLength_eq_some hm
      rw [List.length_drop] at this
      simp only [beq_iff_eq] at hk0
      omega
  · -- `>`, blanks and a name
    split at hf
    · rename_i rest
      split at hf
      · cases hf
        have hspan := span_le_length isBlank rest
        have hname := nameLength_le ((('>' :: rest).drop (1 + span isBlank rest)))
        rw [List.length_drop] at hname
        simp only [List.length_cons] at hname ⊢
        omega
      · cases hf
    · cases hf

/-! ## The options a text is made of -/

/-- `cs` is blank runs and options in turn, `items` in order: after each blank run stands the
option that `optionAt` finds there, taking the text `w`, and the text ends in a blank run. -/
inductive OptionsText : List Char → List OptionItem → Prop
  | blank {b : List Char} (hb : ∀ c ∈ b, isBlank c = true) : OptionsText b []
  | item {cs b w rest : List Char} {item : OptionItem} {items : List OptionItem}
      (hb : ∀ c ∈ b, isBlank c = true) (hw : optionAt (w ++ rest) = some (item, w.length))
      (hrest : OptionsText rest items) (hcs : cs = b ++ w ++ rest) :
      OptionsText cs (item :: items)

/-- A blank in front of a text of options leaves its options as they are. -/
theorem OptionsText.cons_blank {c : Char} {cs : List Char} {items : List OptionItem}
    (hc : isBlank c = true) (h : OptionsText cs items) : OptionsText (c :: cs) items := by
  cases h with
  | blank hb => exact .blank (by simpa [hc] using hb)
  | item hb hw hrest hcs =>
    exact .item (b := c :: _) (by simpa [hc] using hb) hw hrest (by simp [hcs])

/-- Two blank runs that each end before a character that is not blank are the same run. -/
theorem blank_run_unique {b b' r r' : List Char} {x x' : Char} (hb : ∀ c ∈ b, isBlank c = true)
    (hb' : ∀ c ∈ b', isBlank c = true) (hx : isBlank x = false) (hx' : isBlank x' = false)
    (h : b ++ x :: r = b' ++ x' :: r') : b = b' ∧ x :: r = x' :: r' := by
  induction b generalizing b' with
  | nil =>
    cases b' with
    | nil => exact ⟨rfl, h⟩
    | cons y ys =>
      simp only [List.nil_append, List.cons_append, List.cons.injEq] at h
      have := hb' y (by simp)
      simp_all
  | cons y ys ih =>
    cases b' with
    | nil =>
      simp only [List.nil_append, List.cons_append, List.cons.injEq] at h
      have := hb y (by simp)
      simp_all
    | cons y' ys' =>
      simp only [List.cons_append, List.cons.injEq] at h
      obtain ⟨hyy, hrest⟩ := h
      obtain ⟨hys, hxr⟩ := ih (fun c hc => hb c (by simp [hc])) (fun c hc => hb' c (by simp [hc]))
        hrest
      exact ⟨by rw [hyy, hys], hxr⟩

/-- The text an option takes starts with a character that is not blank. -/
theorem exists_cons_of_optionAt {w rest : List Char} {item : OptionItem}
    (hw : optionAt (w ++ rest) = some (item, w.length)) :
    ∃ x w', w = x :: w' ∧ isBlank x = false := by
  cases w with
  | nil => exact absurd (optionAt_length hw).1 (by simp)
  | cons x w' =>
    refine ⟨x, w', rfl, ?_⟩
    cases hx : isBlank x with
    | false => rfl
    | true => rw [List.cons_append, optionAt_cons_blank hx] at hw; cases hw

/-- **A text is read as options in one way only**: the blanks before each option end where
it starts, and the option takes the text `optionAt` says. -/
theorem OptionsText.unique {cs : List Char} {items items' : List OptionItem}
    (h : OptionsText cs items) (h' : OptionsText cs items') : items = items' := by
  induction h generalizing items' with
  | blank hb =>
    cases h' with
    | blank => rfl
    | item hb' hw' _ hcs' =>
      -- an option would start at a character of the blank run
      obtain ⟨x, w', rfl, hx⟩ := exists_cons_of_optionAt hw'
      have := hb x (by simp [hcs'])
      simp_all
  | item hb hw _ hcs ih =>
    cases h' with
    | blank hb' =>
      obtain ⟨x, w', rfl, hx⟩ := exists_cons_of_optionAt hw
      have := hb' x (by simp [hcs])
      simp_all
    | item hb' hw' hrest' hcs' =>
      obtain ⟨x, v, rfl, hx⟩ := exists_cons_of_optionAt hw
      obtain ⟨x', v', rfl, hx'⟩ := exists_cons_of_optionAt hw'
      rw [hcs, List.append_assoc, List.append_assoc] at hcs'
      obtain ⟨-, hsame⟩ := blank_run_unique hb hb' hx hx' (by simpa using hcs')
      -- the same option starts there, so it takes the same text and leaves the same rest
      rw [← List.cons_append, ← List.cons_append] at hsame
      rw [← hsame, hw] at hw'
      obtain ⟨rfl, hlen⟩ := Prod.mk.inj (Option.some.inj hw')
      obtain ⟨-, rfl⟩ := List.append_inj hsame hlen
      rw [ih hrest']

/-! ## What the items give -/

namespace OptionItem

/-- The keys of the weight. -/
def weightKeys : List String := ["weight", "w", "@w"]

/-- The keys of the depth limit. -/
def depthKeys : List String := ["maxdepth", "md", "@"]

/-- The number of an option, read as a double. -/
def numberOf (number : String) : Float := (Number.readFloat? number).getD 0.0

/-- The weight the item gives. -/
def weight? : OptionItem → Option Float
  | .keyed key number => if key ∈ weightKeys then some (numberOf number) else none
  | .fallback _ => none

/-- The depth limit the item gives: its number truncated toward zero. -/
def depth? : OptionItem → Option Int
  | .keyed key number => if key ∈ depthKeys then Number.truncate? (numberOf number) else none
  | .fallback _ => none

/-- The rule the item names to walk instead. -/
def fallback? : OptionItem → Option String
  | .keyed _ _ => none
  | .fallback label => some label

/-- The item is read without fault: its key is one of the six, and a depth limit's number is a
finite double. -/
def Valid : OptionItem → Prop
  | .keyed key number =>
    key ∈ weightKeys ∨ (key ∈ depthKeys ∧ (Number.truncate? (numberOf number)).isSome)
  | .fallback _ => True

end OptionItem

/-- The last value that `f` gives on the items. -/
def lastOf {β : Type} (f : OptionItem → Option β) : List OptionItem → Option β
  | [] => none
  | item :: rest => (lastOf f rest).or (f item)

namespace RuleOptions

/-- The options `o` under `items`, the later winning over the earlier and over `o`: the last
weight, depth limit and fallback the items give, each kept from `o` where they give none. -/
def withLast (o : RuleOptions) (items : List OptionItem) : RuleOptions :=
  ⟨(lastOf OptionItem.weight? items).getD o.weight,
    (lastOf OptionItem.depth? items).or o.maxDepth,
    (lastOf OptionItem.fallback? items).or o.fallback⟩

theorem withLast_nil (o : RuleOptions) : o.withLast [] = o := rfl

theorem withLast_cons (o : RuleOptions) (item : OptionItem) (items : List OptionItem) :
    o.withLast (item :: items) = (o.withLast [item]).withLast items := by
  simp only [withLast, lastOf, Option.none_or]
  congr 1
  · cases lastOf OptionItem.weight? items <;> cases item.weight? <;> rfl
  · rw [Option.or_assoc]
  · rw [Option.or_assoc]

theorem mem_weightKeys_iff (key : String) :
    key ∈ OptionItem.weightKeys ↔ (key == "weight" || key == "w" || key == "@w") = true := by
  simp [OptionItem.weightKeys, or_assoc]

theorem mem_depthKeys_iff (key : String) :
    key ∈ OptionItem.depthKeys ↔ (key == "maxdepth" || key == "md" || key == "@") = true := by
  simp [OptionItem.depthKeys, or_assoc]

theorem not_mem_depthKeys {key : String} (h : key ∈ OptionItem.weightKeys) :
    key ∉ OptionItem.depthKeys := by
  simp only [OptionItem.depthKeys, OptionItem.weightKeys, List.mem_cons, List.not_mem_nil,
    or_false] at h ⊢
  rcases h with rfl | rfl | rfl <;> decide

/-- **One option is read without fault exactly when it is valid**, and then it gives what it
says over the options before it. -/
theorem apply_eq_ok_iff (o o' : RuleOptions) (item : OptionItem) :
    o.apply item = .ok o' ↔ item.Valid ∧ o' = o.withLast [item] := by
  cases item with
  | fallback label =>
    simp only [apply, Except.ok.injEq, OptionItem.Valid, true_and]
    exact eq_comm
  | keyed key number =>
    by_cases hw : key ∈ OptionItem.weightKeys
    · have hb := (mem_weightKeys_iff key).1 hw
      simp only [apply, hb, if_true, Except.ok.injEq, OptionItem.Valid, hw, true_or, true_and]
      simp [withLast, lastOf, OptionItem.weight?, OptionItem.depth?, OptionItem.fallback?, hw,
        OptionItem.numberOf, not_mem_depthKeys hw, eq_comm]
    · have hb : (key == "weight" || key == "w" || key == "@w") = false := by
        simpa [mem_weightKeys_iff] using hw
      by_cases hd : key ∈ OptionItem.depthKeys
      · have hdb := (mem_depthKeys_iff key).1 hd
        simp only [apply, hb, hdb, Bool.false_eq_true, if_false, if_true, OptionItem.Valid, hw,
          hd, true_and, false_or]
        cases ht : Number.truncate? ((Number.readFloat? number).getD 0.0) with
        | none => simp [OptionItem.numberOf, ht]
        | some n =>
          simp [withLast, lastOf, OptionItem.weight?, OptionItem.depth?, OptionItem.fallback?,
            hw, hd, OptionItem.numberOf, ht, eq_comm]
      · have hdb : (key == "maxdepth" || key == "md" || key == "@") = false := by
          simpa [mem_depthKeys_iff] using hd
        simp [apply, hb, hdb, OptionItem.Valid, hw, hd]

/-- **Options read one after another without fault exactly when each is valid**, and the later
win over the earlier. -/
theorem foldlM_apply_eq_ok_iff (items : List OptionItem) (o o' : RuleOptions) :
    items.foldlM apply o = .ok o' ↔ (∀ item ∈ items, item.Valid) ∧ o' = o.withLast items := by
  induction items generalizing o with
  | nil =>
    show Except.ok o = .ok o' ↔ _
    simp [withLast_nil, eq_comm]
  | cons item rest ih =>
    rw [List.foldlM_cons, withLast_cons]
    cases ho : o.apply item with
    | error f =>
      have hbad : ¬ item.Valid := fun hv => by
        have := (apply_eq_ok_iff o (o.withLast [item]) item).2 ⟨hv, rfl⟩
        rw [ho] at this
        cases this
      simp only [List.mem_cons, forall_eq_or_imp]
      constructor
      · intro h
        cases h
      · intro h
        exact absurd h.1.1 hbad
    | ok o₁ =>
      obtain ⟨hv, rfl⟩ := (apply_eq_ok_iff o o₁ item).1 ho
      show rest.foldlM apply (o.withLast [item]) = .ok o' ↔ _
      rw [ih]
      simp [hv]

/-! ## Reading a text of options -/

/-- Blanks in front of the text join the text since the last option. -/
theorem readFrom_blank_append (o : RuleOptions) {gap b : List Char}
    (hb : ∀ c ∈ b, isBlank c = true) (cs : List Char) :
    readFrom o gap (b ++ cs) = readFrom o (gap ++ b) cs := by
  induction b generalizing gap with
  | nil => simp
  | cons c b ih =>
    have hc := hb c (by simp)
    rw [List.cons_append, readFrom, optionAt_cons_blank hc]
    dsimp only
    rw [ih fun x hx => hb x (by simp [hx])]
    simp

/-- **A reading that succeeds has read a text of options**, each option valid, the later
winning; the text since the last option before it was blank. -/
theorem readFrom_ok {o o' : RuleOptions} {gap cs : List Char} (h : readFrom o gap cs = .ok o') :
    (∀ c ∈ gap, isBlank c = true) ∧
      ∃ items, OptionsText cs items ∧ items.foldlM apply o = .ok o' := by
  fun_induction readFrom o gap cs with
  | case1 o gap hgap =>
    cases h
    exact ⟨by simpa using hgap, [], .blank (by simp), rfl⟩
  | case2 => cases h
  | case3 o gap c rest item n hopt hgap o₁ happ ih =>
    obtain ⟨-, items, htext, hfold⟩ := ih h
    obtain ⟨hpos, hle⟩ := optionAt_length hopt
    -- the option takes the first `n` characters, and the reading goes on after them
    have hsplit : (c :: rest).take n ++ rest.drop (n - 1) = c :: rest := by
      rw [← List.drop_cons (by omega)]
      exact List.take_append_drop n _
    refine ⟨by simpa using hgap, item :: items, .item (b := []) (w := (c :: rest).take n)
      (by simp) ?_ htext ?_, ?_⟩
    · rw [hsplit, List.length_take_of_le hle, hopt]
    · rw [List.nil_append, hsplit]
    · rw [List.foldlM_cons, happ]
      exact hfold
  | case4 => cases h
  | case5 => cases h
  | case6 o gap c rest hopt ih =>
    obtain ⟨hgap, items, htext, hfold⟩ := ih h
    have hc : isBlank c = true := hgap c (by simp)
    exact ⟨fun x hx => hgap x (by simp [hx]), items, htext.cons_blank hc, hfold⟩

theorem all_isBlank_append {gap b : List Char} (hgap : ∀ c ∈ gap, isBlank c = true)
    (hb : ∀ c ∈ b, isBlank c = true) : (gap ++ b).all isBlank = true :=
  List.all_eq_true.2 fun c hc => (List.mem_append.1 hc).elim (hgap c) (hb c)

/-- **A text of valid options is read**, from any blank text since the last option. -/
theorem readFrom_of_optionsText {cs : List Char} {items : List OptionItem} (h : OptionsText cs items) :
    ∀ {o o' : RuleOptions} {gap : List Char}, (∀ c ∈ gap, isBlank c = true) →
      items.foldlM apply o = .ok o' → readFrom o gap cs = .ok o' := by
  induction h with
  | @blank b hb =>
    intro o o' gap hgap hfold
    have hblank : readFrom o gap (b ++ []) = readFrom o (gap ++ b) [] :=
      readFrom_blank_append o hb []
    rw [List.append_nil] at hblank
    rw [hblank, readFrom, if_pos (all_isBlank_append hgap hb)]
    exact hfold
  | @item cs b w rest item items hb hw _ hcs ih =>
    intro o o' gap hgap hfold
    obtain ⟨x, w', rfl, -⟩ := exists_cons_of_optionAt hw
    rw [List.foldlM_cons] at hfold
    cases happ : o.apply item with
    | error f => rw [happ] at hfold; cases hfold
    | ok o₁ =>
      rw [happ] at hfold
      rw [hcs, List.append_assoc, readFrom_blank_append o hb, List.cons_append, readFrom]
      rw [← List.cons_append, hw]
      simp only [all_isBlank_append hgap hb, if_true, happ]
      simp only [List.length_cons, Nat.add_sub_cancel, List.drop_left]
      exact ih (by simp) hfold

/-- **Rule options are a last-wins sequence.** Reading the text between a rule's name and its
brace succeeds exactly when the text is blank runs and options in turn, each the option found
where the blanks before it end, with every key one of `weight`, `w`, `@w`, `maxdepth`, `md`,
`@` and every depth limit's number a finite double. The options read are then the last
weight (1 if none), the last depth limit truncated toward zero (none if none) and the last
fallback (none if none). -/
theorem read_eq_ok_iff (text : String) (o : RuleOptions) :
    read text = .ok o ↔ ∃ items, OptionsText text.toList items ∧
      (∀ item ∈ items, item.Valid) ∧ o = plain.withLast items := by
  constructor
  · intro h
    obtain ⟨-, items, htext, hfold⟩ := readFrom_ok h
    exact ⟨items, htext, (foldlM_apply_eq_ok_iff items plain o).1 hfold⟩
  · rintro ⟨items, htext, hvalid, rfl⟩
    exact readFrom_of_optionsText htext (by simp)
      ((foldlM_apply_eq_ok_iff items plain _).2 ⟨hvalid, rfl⟩)

end RuleOptions

end Script

end ShapeGrammar
