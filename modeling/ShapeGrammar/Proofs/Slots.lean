import ShapeGrammar.Proofs.Pools
import ShapeGrammar.Proofs.Parsing
/-!
# Settings by slot

A `set` writes one *slot* of the settings: a setting with a meaning of its own, or an extra
key kept as text (`Slot`, `Settings.slotOf`). This file shows that a `set` that does not
fail does exactly what `Settings.write` says (`Settings.set_eq_write`): it writes its slot
and no other (`Settings.sameAt_write_of_ne`), leaves the ceilings of counts alone, and
writes its slot alike whatever the settings were before (`Settings.write_sameAt`): a count
is capped by the ceiling only, and a colour scheme assigned without fault makes the same
pool from any pool.

So what a run of `set`s leaves depends only on the last value it writes in each slot
(`Settings.Settled`), and settling the same assignments twice changes nothing more. A
compilation applies the settings of a rule body once for each variant of the rule, and
a rule of a parsed script has a variant, so the settings it leaves are those of the
script's settings taken once each, in the order of the script
(`Draft.compileBody_settled`).
-/

namespace ShapeGrammar

/-- The value a list of assignments leaves a key with: the last one it assigns. -/
def lastValue {κ : Type} [DecidableEq κ] (k : κ) : List (κ × String) → Option String
  | [] => none
  | (k', x) :: rest => (lastValue k rest).or (if k' = k then some x else none)

theorem lastValue_append {κ : Type} [DecidableEq κ] (k : κ) (as bs : List (κ × String)) :
    lastValue k (as ++ bs) = (lastValue k bs).or (lastValue k as) := by
  induction as with
  | nil => simp [lastValue]
  | cons a as ih =>
    obtain ⟨k', x⟩ := a
    simp [lastValue, ih, Option.or_assoc]

/-- What a `set` changes: a setting with a meaning of its own, or an extra key. -/
inductive Slot where
  | setting (which : Setting)
  | extra (key : String)
deriving DecidableEq

namespace Settings

/-- The slot that `set key value` changes and the text it reads there, with the `cp:g` and
`cp:h` shorthands spelled out. -/
def slotOf (kv : String × String) : Slot × String :=
  let (key, value) :=
    if kv.1 == "cp:g" then ("colorpool", "grayscale:" ++ kv.2)
    else if kv.1 == "cp:h" then ("colorpool", "randomhue:" ++ kv.2)
    else kv
  match Setting.ofKey? key with
  | some w => (.setting w, value)
  | none => (.extra key, value)

/-- The settings after `x` is written to a count, when it reads as a whole number. -/
def writeCount (s : Settings) (w : Setting) (x : String) : Settings :=
  ((readNumber? x).bind Number.truncate?).elim s fun n => s.withCount w (s.capped w n).1

/-- The settings after `x` is written to a scene colour, when it reads as a colour. -/
def writeColour (s : Settings) (w : Setting) (x : String) : Settings :=
  (readColour? x).elim s fun c => s.withColour w (some c)

/-- The settings after `x` is written to a setting, when it reads there. -/
def writeSetting (s : Settings) (x : String) : Setting → Settings
  | .maxDepth => s.writeCount .maxDepth x
  | .maxObjects => s.writeCount .maxObjects x
  | .seed => s.writeCount .seed x
  | .minSize => (readNumber? x).elim s fun y => { s with minSize := y }
  | .maxSize => (readNumber? x).elim s fun y => { s with maxSize := y }
  | .colourPool => { s with pool := (s.pool.assign x).state }
  | .background => s.writeColour .background x
  | .floor => s.writeColour .floor x
  | .sky => s.writeColour .sky x

/-- The settings after `x` is written to a slot, when it reads there: what a `set` that
does not fail leaves. -/
def write (s : Settings) : Slot → String → Settings
  | .extra key, x => { s with extras := putExtra s.extras key x }
  | .setting w, x => s.writeSetting x w

end Settings

/-- The text reads in the slot: a count, a size, a colour or a scheme that is one. -/
def Slot.Accepts : Slot → String → Prop
  | .extra _, _ => True
  | .setting .maxDepth, x | .setting .maxObjects, x | .setting .seed, x =>
    ((Settings.readNumber? x).bind Number.truncate?).isSome
  | .setting .minSize, x | .setting .maxSize, x => (Settings.readNumber? x).isSome
  | .setting .colourPool, x => (Pool.blank.assign x).fault = none
  | .setting .background, x | .setting .floor, x | .setting .sky, x =>
    (Settings.readColour? x).isSome

namespace Pool

/-- Whether a scheme is assigned without fault does not depend on the pool. -/
theorem assign_fault (p q : Pool) (text : String) : (p.assign text).fault = (q.assign text).fault := by
  rcases assign_cases text with ⟨r, hr, -⟩ | ⟨f, hf⟩
  · rw [(hr p).1, (hr q).1]
  · rw [(hf p).1, (hf q).1]

/-- A scheme assigned without fault gives the same pool, whatever pool it was assigned to. -/
theorem assign_state_of_ok {p : Pool} {text : String} (h : (p.assign text).fault = none) (q : Pool) :
    (p.assign text).state = (q.assign text).state := by
  rcases assign_cases text with ⟨r, hr, -⟩ | ⟨f, hf⟩
  · rw [(hr p).2, (hr q).2]
  · rw [(hf p).1] at h
    cases h

end Pool

namespace Settings

/-- **A `set` that does not fail reads its value in its slot and writes it there.** -/
theorem set_eq_write {s : Settings} {key value : String} (h : (s.set key value).fault = none) :
    (slotOf (key, value)).1.Accepts (slotOf (key, value)).2 ∧
      (s.set key value).state = s.write (slotOf (key, value)).1 (slotOf (key, value)).2 := by
  revert h
  unfold set slotOf
  dsimp only
  generalize (if key == "cp:g" then ("colorpool", "grayscale:" ++ value)
    else if key == "cp:h" then ("colorpool", "randomhue:" ++ value) else (key, value)) = kv
  obtain ⟨k, x⟩ := kv
  dsimp only
  cases hw : Setting.ofKey? k with
  | none => exact fun _ => ⟨trivial, rfl⟩
  | some w =>
    cases w <;> dsimp only
    case maxDepth | maxObjects | seed =>
      cases hr : readNumber? x with
      | none => exact fun h => nomatch h
      | some y =>
        dsimp only
        cases ht : Number.truncate? y with
        | none =>
          dsimp only
          split <;> exact fun h => nomatch h
        | some n => exact fun _ => ⟨by simp [Slot.Accepts, hr, ht], by simp [write, writeSetting, writeCount, hr, ht]⟩
    case minSize | maxSize =>
      cases hr : readNumber? x with
      | none => exact fun h => nomatch h
      | some y => exact fun _ => ⟨by simp [Slot.Accepts, hr], by simp [write, writeSetting, hr, Outcome.done]⟩
    case background | floor | sky =>
      cases hr : readColour? x with
      | none => exact fun h => nomatch h
      | some c => exact fun _ => ⟨by simp [Slot.Accepts, hr], by simp [write, writeSetting, writeColour, hr, Outcome.done]⟩
    case colourPool =>
      cases hf : (s.pool.assign x).fault with
      | none =>
        refine fun _ => ⟨?_, rfl⟩
        show (Pool.blank.assign x).fault = none
        rw [Pool.assign_fault Pool.blank s.pool, hf]
      | some f =>
        dsimp only
        split <;> exact fun h => nomatch h

/-- Two settings agree in a slot. -/
def SameAt : Slot → Settings → Settings → Prop
  | .extra key, s₁, s₂ => s₁.extras.lookup key = s₂.extras.lookup key
  | .setting .maxDepth, s₁, s₂ => s₁.maxDepth = s₂.maxDepth
  | .setting .maxObjects, s₁, s₂ => s₁.maxObjects = s₂.maxObjects
  | .setting .minSize, s₁, s₂ => s₁.minSize = s₂.minSize
  | .setting .maxSize, s₁, s₂ => s₁.maxSize = s₂.maxSize
  | .setting .seed, s₁, s₂ => s₁.seed = s₂.seed
  | .setting .background, s₁, s₂ => s₁.background = s₂.background
  | .setting .floor, s₁, s₂ => s₁.floor = s₂.floor
  | .setting .sky, s₁, s₂ => s₁.sky = s₂.sky
  | .setting .colourPool, s₁, s₂ => s₁.pool = s₂.pool

namespace SameAt

variable {sl : Slot} {s₁ s₂ s₃ : Settings}

theorem refl (sl : Slot) (s : Settings) : SameAt sl s s := by
  cases sl with
  | extra k => rfl
  | setting w => cases w <;> rfl

theorem symm (h : SameAt sl s₁ s₂) : SameAt sl s₂ s₁ := by
  cases sl with
  | extra k => exact Eq.symm h
  | setting w => cases w <;> exact Eq.symm h

theorem trans (h₁ : SameAt sl s₁ s₂) (h₂ : SameAt sl s₂ s₃) : SameAt sl s₁ s₃ := by
  cases sl with
  | extra k => exact Eq.trans h₁ h₂
  | setting w => cases w <;> exact Eq.trans h₁ h₂

end SameAt

theorem lookup_cons_ite (a b k : String) (l : List (String × String)) :
    ((a, b) :: l).lookup k = if k = a then some b else l.lookup k := by
  rw [List.lookup_cons]
  by_cases h : k = a
  · simp [h]
  · simp [h, beq_eq_false_iff_ne.mpr h]

/-- Setting an extra key in place changes what that key looks up, and no other key. -/
theorem lookup_map_put (extras : List (String × String)) (k x k' : String) :
    (extras.map fun (e : String × String) => if e.1 == k then (k, x) else e).lookup k' =
      if k' = k then (if extras.any (·.1 == k) then some x else none) else extras.lookup k' := by
  induction extras with
  | nil => simp
  | cons e rest ih =>
    obtain ⟨a, b⟩ := e
    simp only [beq_iff_eq] at ih
    by_cases ha : a = k
    · -- the entry has the key set: it now holds `x`
      subst ha
      by_cases hk : k' = a <;> simp [lookup_cons_ite, hk, ih]
    · -- the entry keeps its value
      have hak : (a == k) = false := beq_false_of_ne ha
      by_cases hk : k' = k
      · subst hk
        simp only [List.any_cons, hak, Bool.false_or]
        simp [lookup_cons_ite, ha, Ne.symm ha, ih]
      · simp [lookup_cons_ite, ha, ih, hk]

theorem lookup_putExtra (extras : List (String × String)) (k x k' : String) :
    (putExtra extras k x).lookup k' = if k' = k then some x else extras.lookup k' := by
  unfold putExtra
  split
  · rename_i hany
    have := lookup_map_put extras k x k'
    simp only [hany, if_true] at this
    exact this
  · rename_i hany
    by_cases hk : k' = k
    · subst hk
      have hnone : extras.lookup k' = none := by
        rw [List.lookup_eq_none_iff]
        intro p hp
        simpa using fun h : k' = p.1 => hany (List.any_eq_true.mpr ⟨p, hp, by simp [h]⟩)
      simp [List.lookup_append, hnone]
    · simp [List.lookup_append, hk]

/-- The ceilings of counts, which no `set` changes. -/
def SameCeilings (s₁ s₂ : Settings) : Prop :=
  s₁.depthCeiling = s₂.depthCeiling ∧ s₁.objectCeiling = s₂.objectCeiling

/-- What holds of the settings left when a read fails and of those left for each value it
may give holds of the settings it leaves. -/
@[elab_as_elim]
theorem elim_induct {α : Type} {P : Settings → Prop} (o : Option α) (t : Settings) (f : α → Settings)
    (ht : P t) (hf : ∀ a, P (f a)) : P (o.elim t f) := by
  cases o with
  | none => exact ht
  | some a => exact hf a

theorem sameCeilings_write (s : Settings) (sl : Slot) (x : String) :
    SameCeilings (s.write sl x) s := by
  cases sl with
  | extra k => exact ⟨rfl, rfl⟩
  | setting w =>
    cases w <;> dsimp only [write, writeSetting, writeCount, writeColour] <;> first
      | exact elim_induct _ _ _ ⟨rfl, rfl⟩ fun _ => ⟨rfl, rfl⟩
      | exact ⟨rfl, rfl⟩

/-- **Writing a slot leaves every other slot as it was.** -/
theorem sameAt_write_of_ne {sl sl' : Slot} (h : sl' ≠ sl) (s : Settings) (x : String) :
    SameAt sl' (s.write sl x) s := by
  cases sl with
  | extra k =>
    cases sl' with
    | extra k' =>
      show (putExtra s.extras k x).lookup k' = s.extras.lookup k'
      rw [lookup_putExtra, if_neg fun e => h (congrArg Slot.extra e)]
    | setting w' => cases w' <;> rfl
  | setting w =>
    cases sl' with
    | extra k' =>
      cases w <;> dsimp only [write, writeSetting, writeCount, writeColour] <;> first
        | exact elim_induct _ _ _ rfl fun _ => rfl
        | rfl
    | setting w' =>
      have hw : w' ≠ w := fun e => h (congrArg Slot.setting e)
      cases w <;> cases w' <;> dsimp only [write, writeSetting, writeCount, writeColour] <;> first
        | exact absurd rfl hw
        | exact elim_induct _ _ _ rfl fun _ => rfl
        | rfl

theorem capped_congr {s₁ s₂ : Settings} (hc : SameCeilings s₁ s₂) (w : Setting) (n : Int) :
    s₁.capped w n = s₂.capped w n := by
  cases w <;> simp [capped, ceiling?, hc.1, hc.2]

/-- **A value that reads in its slot is written alike whatever the settings before**, as
long as their ceilings agree: a count is capped by the ceiling only, and a scheme that
is assigned without fault makes the same pool from any pool. -/
theorem write_sameAt {sl : Slot} {x : String} (hA : sl.Accepts x) {s₁ s₂ : Settings}
    (hc : SameCeilings s₁ s₂) : SameAt sl (s₁.write sl x) (s₂.write sl x) := by
  cases sl with
  | extra k =>
    show (putExtra s₁.extras k x).lookup k = (putExtra s₂.extras k x).lookup k
    rw [lookup_putExtra, lookup_putExtra, if_pos rfl, if_pos rfl]
  | setting w =>
    cases w
    case maxDepth | maxObjects | seed =>
      obtain ⟨n, hn⟩ := Option.isSome_iff_exists.mp hA
      simp only [write, writeSetting, writeCount, hn, Option.elim_some, capped_congr hc]
      rfl
    case minSize | maxSize =>
      obtain ⟨y, hy⟩ := Option.isSome_iff_exists.mp hA
      simp only [write, writeSetting, hy, Option.elim_some]
      rfl
    case background | floor | sky =>
      obtain ⟨c, hc⟩ := Option.isSome_iff_exists.mp hA
      simp only [write, writeSetting, writeColour, hc, Option.elim_some]
      rfl
    case colourPool =>
      have hf : (s₁.pool.assign x).fault = none := (Pool.assign_fault _ Pool.blank x).trans hA
      dsimp only [SameAt, write, writeSetting]
      exact Pool.assign_state_of_ok hf s₂.pool

/-- Settings `t` are settings `s` after assignments whose last value in each slot is the
last one `as` gives, each read without fault: a slot that `as` assigns holds its last
value there, every other slot is as in `s`, and the ceilings are as in `s`. -/
structure Settled (as : List (Slot × String)) (s t : Settings) : Prop where
  ceilings : SameCeilings t s
  assigned : ∀ sl x, lastValue sl as = some x → sl.Accepts x ∧ SameAt sl t (s.write sl x)
  kept : ∀ sl, lastValue sl as = none → SameAt sl t s

namespace Settled

variable {as bs : List (Slot × String)} {s t u : Settings}

theorem nil (s : Settings) : Settled [] s s :=
  ⟨⟨rfl, rfl⟩, fun _ _ h => (nomatch h), fun sl _ => SameAt.refl sl s⟩

/-- A `set` that does not fail settles its one assignment. -/
theorem set {key value : String} (h : (s.set key value).fault = none) :
    Settled [slotOf (key, value)] s (s.set key value).state := by
  obtain ⟨hA, hs⟩ := set_eq_write h
  rw [hs]
  refine ⟨sameCeilings_write _ _ _, fun sl x hx => ?_, fun sl hx => ?_⟩
  · simp only [lastValue, Option.none_or, Option.ite_none_right_eq_some] at hx
    obtain ⟨rfl, hx⟩ := hx
    cases hx
    exact ⟨hA, SameAt.refl _ _⟩
  · simp only [lastValue, Option.none_or, ite_eq_right_iff, reduceCtorEq, imp_false] at hx
    exact sameAt_write_of_ne (Ne.symm hx) s _

/-- Assignments settled one after another settle together. -/
theorem append (h₁ : Settled as s t) (h₂ : Settled bs t u) : Settled (as ++ bs) s u := by
  refine ⟨⟨h₂.ceilings.1.trans h₁.ceilings.1, h₂.ceilings.2.trans h₁.ceilings.2⟩,
    fun sl x hx => ?_, fun sl hx => ?_⟩
  · rw [lastValue_append] at hx
    cases hb : lastValue sl bs with
    | some y =>
      -- the later assignment wins, and writes alike over either settings
      rw [hb, Option.some_or] at hx
      obtain ⟨hA, hu⟩ := h₂.assigned sl x (hb.trans hx)
      exact ⟨hA, hu.trans (write_sameAt hA h₁.ceilings)⟩
    | none =>
      rw [hb, Option.none_or] at hx
      obtain ⟨hA, ht⟩ := h₁.assigned sl x hx
      exact ⟨hA, (h₂.kept sl hb).trans ht⟩
  · rw [lastValue_append] at hx
    obtain ⟨hb, ha⟩ := Option.or_eq_none_iff.mp hx
    exact (h₂.kept sl hb).trans (h₁.kept sl ha)

/-- Only the last values count. -/
theorem congr (h : ∀ sl, lastValue sl as = lastValue sl bs) (ht : Settled as s t) :
    Settled bs s t :=
  ⟨ht.ceilings, fun sl x hx => ht.assigned sl x ((h sl).trans hx),
    fun sl hx => ht.kept sl ((h sl).trans hx)⟩

/-- Settling the same assignments again changes nothing more. -/
theorem again (h₁ : Settled as s t) (h₂ : Settled as t u) : Settled as s u := by
  refine congr (fun sl => ?_) (h₁.append h₂)
  rw [lastValue_append]
  cases lastValue sl as <;> rfl

/-- Settings that settle assignments with the same last values from the same settings
agree in every slot. -/
theorem sameAt (h₁ : Settled as s t) (h₂ : Settled bs s u)
    (h : ∀ sl, lastValue sl as = lastValue sl bs) (sl : Slot) : SameAt sl t u := by
  cases hb : lastValue sl bs with
  | some x =>
    exact (h₁.assigned sl x ((h sl).trans hb)).2.trans (h₂.assigned sl x hb).2.symm
  | none => exact (h₁.kept sl ((h sl).trans hb)).trans (h₂.kept sl hb).symm

end Settled

/-- Settings that agree in every slot and in their ceilings differ at most in the order
of their extra keys. -/
theorem eq_of_sameAt {t u : Settings} (h : ∀ sl, SameAt sl t u) (hc : SameCeilings t u) :
    t = { u with extras := t.extras } := by
  have h₁ : t.maxDepth = u.maxDepth := h (.setting .maxDepth)
  have h₂ : t.maxObjects = u.maxObjects := h (.setting .maxObjects)
  have h₃ : t.minSize = u.minSize := h (.setting .minSize)
  have h₄ : t.maxSize = u.maxSize := h (.setting .maxSize)
  have h₅ : t.seed = u.seed := h (.setting .seed)
  have h₆ : t.background = u.background := h (.setting .background)
  have h₇ : t.floor = u.floor := h (.setting .floor)
  have h₈ : t.sky = u.sky := h (.setting .sky)
  have h₉ : t.pool = u.pool := h (.setting .colourPool)
  obtain ⟨hd, ho⟩ := hc
  cases t
  cases u
  simp_all

end Settings

open Script

/-- The settings of statements, rule bodies at their places: each once, in the order of
the script. -/
def settingsOf : List Statement → List (String × String)
  | [] => []
  | .setting k v :: rest => (k, v) :: settingsOf rest
  | .rule _ _ body :: rest => settingsOf body ++ settingsOf rest
  | .define _ _ :: rest | .term _ :: rest | .group _ :: rest => settingsOf rest

/-- The slots that the settings of statements write, with the values they write there. -/
def slotWrites (ss : List Statement) : List (Slot × String) := (settingsOf ss).map Settings.slotOf

section SlotWrites

variable (rest : List Statement)

@[simp] theorem slotWrites_nil : slotWrites [] = [] := by simp [slotWrites, settingsOf]

@[simp] theorem slotWrites_define (n v : String) : slotWrites (.define n v :: rest) = slotWrites rest := by
  simp [slotWrites, settingsOf]

@[simp] theorem slotWrites_setting (k v : String) :
    slotWrites (.setting k v :: rest) = Settings.slotOf (k, v) :: slotWrites rest := by
  simp [slotWrites, settingsOf]

@[simp] theorem slotWrites_rule (name : String) (options : RuleOptions) (body : List Statement) :
    slotWrites (.rule name options body :: rest) = slotWrites body ++ slotWrites rest := by
  simp [slotWrites, settingsOf]

@[simp] theorem slotWrites_term (t : Term) : slotWrites (.term t :: rest) = slotWrites rest := by
  simp [slotWrites, settingsOf]

@[simp] theorem slotWrites_group (bs : List Branch) : slotWrites (.group bs :: rest) = slotWrites rest := by
  simp [slotWrites, settingsOf]

end SlotWrites

namespace Outcome

theorem Holds.imp {α : Type} {P Q : α → Prop} {o : Outcome α} (h : o.Holds P)
    (hPQ : ∀ a, P a → Q a) : o.Holds Q :=
  fun hf => hPQ _ (h hf)

end Outcome

open Statement Settings in
/-- **Statements compiled without fault settle their settings**: each rule body once per
variant, which, as a rule has a variant, leaves the last value of every slot the one the
settings of the statements give it, once each in the order of the script. -/
theorem Draft.compileBody_settled (vars : Variables) (rule : Nat) (picks : List Branch)
    (nodes : List Node) (ss : List Statement) (d : Draft) (hfill : groupsFilled ss) :
    (Draft.compileBody vars rule picks nodes ss d).Holds
      fun d' => Settled (slotWrites ss) d.settings d'.settings := by
  fun_induction Draft.compileBody vars rule picks nodes ss d with
  | case1 =>
    rw [slotWrites_nil]
    exact Outcome.holds_done (Settled.nil _)
  | case2 _ _ _ _ _ _ _ ih =>
    rw [slotWrites_define]
    exact ih (by simpa [groupsFilled] using hfill)
  | case3 _ _ _ d key value rest ih =>
    rw [slotWrites_setting]
    have hrest : groupsFilled rest := by simpa [groupsFilled] using hfill
    refine Outcome.Holds.andThen (fun h => Settled.set h) fun s hs => ?_
    exact (ih s hrest).imp fun _ h => hs.append h
  | case4 _ _ _ d name options body rest defined ih₂ ih₁ =>
    unfold defined
    simp only [groupsFilled, Bool.and_eq_true] at hfill
    obtain ⟨hbody, hrest⟩ := hfill
    rw [slotWrites_rule]
    refine Outcome.Holds.andThen (P := fun d' => Settled (slotWrites body) d.settings d'.settings)
      ?_ fun d' hd' => (ih₁ d' hrest).imp fun _ h => hd'.append h
    -- the first variant settles the body's settings, and each later one settles them again
    obtain ⟨c, cs, hc⟩ := List.exists_cons_of_ne_nil (choices_ne_nil options.weight hbody)
    rw [hc, List.foldl_cons]
    refine Outcome.Holds.foldl (fun acc x hacc => ?_) cs _ ?_
    · obtain ⟨w, bs⟩ := x
      refine hacc.andThen fun d₁ h₁ => ?_
      split
      rename_i g i _
      exact (ih₂ bs d₁ g i hbody).imp fun _ h => h₁.again h
    · obtain ⟨w, bs⟩ := c
      refine (Outcome.holds_done (P := (· = d)) rfl).andThen fun d₁ h₁ => ?_
      subst h₁
      split
      rename_i g i _
      exact ih₂ bs d₁ g i hbody
  | case5 _ _ _ _ _ _ _ _ ih =>
    rw [slotWrites_term]
    exact ih (by simpa [groupsFilled] using hfill)
  | case6 => exact Outcome.holds_failed _ _
  | case7 _ _ d _ _ _ _ _ hns ih =>
    rw [Draft.mapM_node_attach] at hns
    rw [hns, slotWrites_group]
    exact ih (by simp_all [groupsFilled])
  | case8 _ _ d _ _ _ _ _ hf =>
    rw [Draft.mapM_node_attach] at hf
    rw [hf]
    exact Outcome.holds_failed _ _
  | case9 _ _ _ _ _ ih =>
    rw [slotWrites_group]
    exact ih (by simp_all [groupsFilled])

end ShapeGrammar
