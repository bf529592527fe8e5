import ShapeGrammar.Proofs.Edits
/-!
# Operator texts compose like their edits

Two operator texts written one after the other, with a blank between them, read as the first
and then the second: the words of `a ++ " " ++ b` are those of `a` followed by those of `b`
(`OpWord.split_append`), and reading them reads `a`'s commands as `a` alone reads them, then
`b`'s commands onto the delta `a` made. So the text makes the edit of `a` and then the edit of
`b` (`Delta.read_append`): the transforms of `a`'s geometry commands and then of `b`'s, in
order, and for the paint and every channel of the shift, blend target and blend ratio the
value `b` writes last, or else the value `a` writes last. A variable is used when `a` or `b`
uses one.

The reader looks one word ahead in one place where a text may end: after the factor of `s`
it takes a second factor when a number or a variable follows. The first word of a text that
reads must be a command or a colour, so it is taken for no number unless it is a colour name
that is also a variable; the law holds for variables none of which is named like a colour.
-/

namespace ShapeGrammar

namespace OpWord

/-! ## Splitting -/

/-- A run of characters stops at a character outside the class. -/
theorem span_append_cons {p : Char → Bool} {c : Char} (hc : p c = false) (cs ds : List Char) :
    Text.span p (cs ++ c :: ds) = Text.span p cs := by
  unfold Text.span
  rw [List.takeWhile_append]
  split
  · rename_i h
    simp [hc, h]
  · rfl

theorem slice_append {cs : List Char} {n : Nat} (h : n ≤ cs.length) (ds : List Char) :
    Text.slice (cs ++ ds) 0 n = Text.slice cs 0 n := by
  simp [Text.slice, List.take_append_of_le_length h]

theorem isDigit_space : Text.isDigit ' ' = false := by decide

/-- A number at the front ends where it ends, whatever follows a blank after it. -/
theorem unsignedLength_append_space {cs : List Char} {n : Nat} (h : unsignedLength cs = some n)
    (ds : List Char) : unsignedLength (cs ++ ' ' :: ds) = some n ∧ n ≤ cs.length := by
  have hle := Text.span_le_length Text.isDigit cs
  unfold unsignedLength at h ⊢
  dsimp only at h ⊢
  rw [span_append_cons isDigit_space]
  split at h
  · rename_i hw
    rw [if_pos hw, List.drop_append_of_le_length hle]
    have hlen : (cs.drop (Text.span Text.isDigit cs)).length = cs.length - Text.span Text.isDigit cs :=
      List.length_drop ..
    generalize cs.drop (Text.span Text.isDigit cs) = r at h hlen ⊢
    split at h
    · rename_i rest
      simp only [List.cons_append, Option.some.injEq] at h ⊢
      rw [span_append_cons isDigit_space]
      have := Text.span_le_length Text.isDigit rest
      simp only [List.length_cons] at hlen
      constructor <;> omega
    · rename_i hr
      cases r with
      | nil =>
        simp only [List.nil_append, Option.some.injEq] at h ⊢
        exact ⟨by rw [← h]; rfl, by omega⟩
      | cons x rest =>
        have hx : x ≠ '.' := fun hx => hr rest (by rw [hx])
        simp only [List.cons_append, Option.some.injEq] at h ⊢
        split
        · rename_i heq
          exact absurd (List.cons.inj heq).1 hx
        · exact ⟨by rw [h], by omega⟩
  · rename_i hw
    rw [if_neg hw]
    split at h
    · rename_i rest
      simp only [List.cons_append]
      rw [span_append_cons isDigit_space]
      split at h
      · have := Text.span_le_length Text.isDigit rest
        simp only [Option.some.injEq] at h
        simp only [List.length_cons]
        exact ⟨by rw [if_pos ‹_›, h], by omega⟩
      · cases h
    · cases h

/-- A name at the front ends where it ends, whatever follows a blank after it. -/
theorem nameLength_append_space (cs ds : List Char) :
    Text.nameLength (cs ++ ' ' :: ds) = Text.nameLength cs ∧ Text.nameLength cs ≤ cs.length := by
  cases cs with
  | nil => exact ⟨rfl, Nat.le_refl 0⟩
  | cons c rest =>
    have hle := Text.span_le_length Text.isNameChar rest
    simp only [Text.nameLength, List.cons_append, List.length_cons]
    rw [span_append_cons (by decide)]
    split <;> omega

theorem isLetter_space : isLetter ' ' = false := by decide

/-- The word at the front of a text is found alike when a blank and more text follow it. -/
theorem atFront_append_space {cs : List Char} {w : OpWord} {n : Nat} (h : atFront cs = some (w, n))
    (ds : List Char) : atFront (cs ++ ' ' :: ds) = some (w, n) ∧ n ≤ cs.length := by
  have hl := Text.span_le_length isLetter cs
  unfold atFront at h ⊢
  dsimp only at h ⊢
  rw [span_append_cons isLetter_space]
  split at h
  · rename_i hw
    rw [if_pos hw, slice_append hl]
    simp only [Option.some.injEq, Prod.mk.injEq] at h
    obtain ⟨rfl, rfl⟩ := h
    exact ⟨rfl, hl⟩
  · rename_i hw
    rw [if_neg hw]
    cases cs with
    | nil => cases h
    | cons c rest =>
      simp only [List.cons_append, List.length_cons]
      split at h
      · rename_i _ tail heq
        obtain ⟨rfl, rfl⟩ := List.cons.inj heq
        simp only [Option.some.injEq, Prod.mk.injEq] at h
        obtain ⟨rfl, rfl⟩ := h
        exact ⟨rfl, by simp⟩
      · rename_i _ rest' heq
        obtain ⟨rfl, rfl⟩ := List.cons.inj heq
        obtain ⟨m, hm, hwn⟩ := Option.map_eq_some_iff.mp h
        obtain ⟨hm', hle⟩ := unsignedLength_append_space hm ds
        simp only [Prod.mk.injEq] at hwn
        obtain ⟨rfl, rfl⟩ := hwn
        refine ⟨?_, by omega⟩
        show Option.map _ (unsignedLength (rest ++ ' ' :: ds)) = _
        rw [hm', Option.map_some, ← List.cons_append, slice_append (by simp; omega)]
      · rename_i _ rest' hq heq
        obtain ⟨rfl, rfl⟩ := List.cons.inj heq
        have hk := Text.span_le_length Text.isHexDigit rest
        split at h
        · rename_i hpos
          simp only [Option.some.injEq, Prod.mk.injEq] at h
          obtain ⟨rfl, rfl⟩ := h
          refine ⟨?_, by omega⟩
          split
          · rename_i _ tail heq'
            cases rest with
            | nil => cases (List.cons.inj (List.cons.inj heq').2).1
            | cons r rest => exact absurd (List.cons.inj (List.cons.inj heq').2).1 (fun h => hq _ (by rw [← h]))
          · rename_i _ _ heq'
            cases (List.cons.inj heq').1
          · rename_i _ rest'' _ heq'
            obtain ⟨-, rfl⟩ := List.cons.inj heq'
            rw [span_append_cons (by decide), if_pos hpos, ← List.cons_append, slice_append (by simp; omega)]
          · rename_i heq'
            cases (List.cons.inj heq').1
          · rename_i heq'
            cases (List.cons.inj heq').1
          · exact (‹∀ r, '#' :: (rest ++ ' ' :: ds) = '#' :: r → False› _ rfl).elim
        · cases h
      · rename_i _ tail heq
        obtain ⟨rfl, rfl⟩ := List.cons.inj heq
        simp only [Option.some.injEq, Prod.mk.injEq] at h
        obtain ⟨rfl, rfl⟩ := h
        exact ⟨rfl, by simp⟩
      · rename_i _ rest' heq
        obtain ⟨rfl, rfl⟩ := List.cons.inj heq
        obtain ⟨hname, hle⟩ := nameLength_append_space rest ds
        split at h
        · rename_i hpos
          simp only [Option.some.injEq, Prod.mk.injEq] at h
          obtain ⟨rfl, rfl⟩ := h
          refine ⟨?_, by omega⟩
          show (if Text.nameLength (rest ++ ' ' :: ds) > 0 then _ else _) = _
          rw [hname, if_pos hpos, slice_append hle]
        · cases h
      · rename_i hne₁ hne₂ hne₃ hne₄ hne₅
        obtain ⟨m, hm, hwn⟩ := Option.map_eq_some_iff.mp h
        obtain ⟨hm', hle⟩ := unsignedLength_append_space hm ds
        simp only [Prod.mk.injEq] at hwn
        obtain ⟨rfl, rfl⟩ := hwn
        refine ⟨?_, by simpa using hle⟩
        rw [List.cons_append] at hm'
        -- the first character, which is none of those the other words start with, decides
        split
        case h_6 => rw [hm', Option.map_some, ← List.cons_append, slice_append hle]
        all_goals
          rename_i heq'
          obtain ⟨rfl, -⟩ := List.cons.inj heq'
          first
            | exact (hne₂ rest rfl).elim
            | exact (hne₃ rest rfl).elim
            | exact (hne₄ rest rfl).elim
            | exact (hne₅ rest rfl).elim

/-! The splitting loop one step at a time; its equation lemmas by cases are slow to build, so
these go through `splitFrom.eq_def`. -/

theorem splitFrom_nil (text : String) : splitFrom text [] = .ok [] := by
  rw [splitFrom.eq_def]

theorem splitFrom_separator {text : String} {c : Char} {rest : List Char}
    (hsep : isSeparator c = true) : splitFrom text (c :: rest) = splitFrom text rest := by
  rw [splitFrom.eq_def]
  dsimp only
  rw [if_pos hsep]

theorem splitFrom_word {text : String} {c : Char} {rest : List Char} {w : OpWord} {n : Nat}
    (hsep : ¬isSeparator c = true) (hfront : atFront (c :: rest) = some (w, n)) :
    splitFrom text (c :: rest) = (splitFrom text (rest.drop (n - 1))).map (w :: ·) := by
  rw [splitFrom.eq_def]
  dsimp only
  rw [if_neg hsep, hfront]

/-- The text of a split is only for its messages: words split off one text split off alike in
another. -/
theorem splitFrom_ok_text (text text' : String) (cs : List Char) :
    ∀ ws, splitFrom text cs = .ok ws → splitFrom text' cs = .ok ws := by
  fun_induction splitFrom text cs with
  | case1 => intro ws h; rw [splitFrom_nil]; exact h
  | case2 c rest hsep ih => intro ws h; rw [splitFrom_separator hsep]; exact ih ws h
  | case3 c rest hsep w n hfront ih =>
    intro ws h
    rw [splitFrom_word hsep hfront]
    cases hr : splitFrom text (rest.drop (n - 1)) with
    | error f => rw [hr] at h; cases h
    | ok ws' => rw [hr] at h; rw [ih ws' hr]; exact h
  | case4 c rest hsep hfront => intro ws h; cases h

/-- **The words of a text, a blank and more text are the words of the first text and then the
words of the rest.** -/
theorem splitFrom_append_space (text text' : String) (cs ds : List Char) :
    ∀ ws, splitFrom text cs = .ok ws →
      splitFrom text' (cs ++ ' ' :: ds) = (splitFrom text' ds).map (ws ++ ·) := by
  fun_induction splitFrom text cs with
  | case1 =>
    intro ws h
    cases h
    rw [List.nil_append, splitFrom_separator (by decide)]
    cases splitFrom text' ds <;> rfl
  | case2 c rest hsep ih =>
    intro ws h
    rw [List.cons_append, splitFrom_separator hsep]
    exact ih ws h
  | case3 c rest hsep w n hfront ih =>
    intro ws h
    cases hr : splitFrom text (rest.drop (n - 1)) with
    | error f => rw [hr] at h; cases h
    | ok ws' =>
      rw [hr] at h
      cases h
      obtain ⟨hfront', hn⟩ := atFront_append_space hfront ds
      rw [List.cons_append] at hfront'
      simp only [List.length_cons] at hn
      have hdrop : (rest ++ ' ' :: ds).drop (n - 1) = rest.drop (n - 1) ++ ' ' :: ds :=
        List.drop_append_of_le_length (by omega)
      rw [List.cons_append, splitFrom_word hsep hfront', hdrop, ih ws' hr]
      cases splitFrom text' ds <;> rfl
  | case4 c rest hsep hfront => intro ws h; cases h

/-- **The words of `a ++ " " ++ b` are the words of `a` and then those of `b`.** -/
theorem split_append {a b : String} {wa wb : List OpWord} (ha : split a = .ok wa)
    (hb : split b = .ok wb) : split (a ++ " " ++ b) = .ok (wa ++ wb) := by
  unfold split at ha hb ⊢
  have hchars : (a ++ " " ++ b).toList = a.toList ++ ' ' :: b.toList := by simp
  rw [hchars, splitFrom_append_space a _ _ _ wa ha, splitFrom_ok_text b _ _ wb hb]
  rfl

end OpWord

namespace Delta

/-! ## Reading on past the end of a text -/

/-- Words that a reader looking for an optional number stops before: the first, if any, is no
number and stands for no variable. -/
def Quiet (src : Source) (ws : List OpWord) : Prop :=
  ∀ w ∈ ws.head?, (∀ t, w ≠ .number t) ∧ src.variableOf w = .ok none

section Continue

variable {α β : Type} {tail : List OpWord} {u₀ : Bool}

/-- The reading `m₂` goes on from every run of `m₁`, over the same words followed by `tail` and
with the flag `u₀` set besides: it ends with the same value, leaving the words `m₁` leaves
followed by `tail`. And `m₁` takes its words from the front. -/
def Continues (tail : List OpWord) (u₀ : Bool) (m₁ m₂ : Reading α) : Prop :=
  ∀ ws u a c, m₁.run ⟨ws, u⟩ = .ok (a, c) →
    c.words <:+ ws ∧
      m₂.run ⟨ws ++ tail, u₀ || u⟩ = .ok (a, ⟨c.words ++ tail, u₀ || c.usedVariables⟩)

/-- `Continues`, from words whose first is `w`. -/
def ContinuesAt (w : OpWord) (tail : List OpWord) (u₀ : Bool) (m₁ m₂ : Reading α) : Prop :=
  ∀ rest u a c, m₁.run ⟨w :: rest, u⟩ = .ok (a, c) →
    c.words <:+ w :: rest ∧
      m₂.run ⟨w :: (rest ++ tail), u₀ || u⟩ = .ok (a, ⟨c.words ++ tail, u₀ || c.usedVariables⟩)

namespace Continues

theorem pure (a : α) : Continues tail u₀ (Pure.pure a : Reading α) (Pure.pure a) := by
  intro ws u a' c h
  cases h
  exact ⟨List.suffix_refl _, rfl⟩

theorem throw (e : Fault) (m₂ : Reading α) : Continues tail u₀ (MonadExcept.throw e) m₂ := by
  intro ws u a c h
  cases h

theorem bind {m₁ m₂ : Reading α} {f₁ f₂ : α → Reading β} (hm : Continues tail u₀ m₁ m₂)
    (hf : ∀ a, Continues tail u₀ (f₁ a) (f₂ a)) : Continues tail u₀ (m₁ >>= f₁) (m₂ >>= f₂) := by
  intro ws u b c h
  rw [StateT.run_bind] at h
  cases h₁ : m₁.run ⟨ws, u⟩ with
  | error e => rw [h₁] at h; cases h
  | ok r =>
    rw [h₁] at h
    obtain ⟨hs₁, h₂⟩ := hm ws u r.1 r.2 h₁
    obtain ⟨hs₂, h₃⟩ := hf r.1 r.2.words r.2.usedVariables b c h
    exact ⟨hs₂.trans hs₁, by rw [StateT.run_bind, h₂]; exact h₃⟩

theorem lift {e₁ e₂ : Except Fault α} (h : ∀ a, e₁ = .ok a → e₂ = .ok a) :
    Continues tail u₀ (liftM e₁ : Reading α) (liftM e₂) := by
  intro ws u a c hr
  cases he : e₁ with
  | error f => rw [he] at hr; cases hr
  | ok a' =>
    rw [he] at hr
    cases hr
    exact ⟨List.suffix_refl _, by rw [h _ he]; rfl⟩

theorem ite {p : Prop} [Decidable p] {m₁ m₂ n₁ n₂ : Reading α} (h₁ : Continues tail u₀ m₁ n₁)
    (h₂ : Continues tail u₀ m₂ n₂) :
    Continues tail u₀ (if p then m₁ else m₂) (if p then n₁ else n₂) := by
  by_cases hp : p
  · simpa only [if_pos hp] using h₁
  · simpa only [if_neg hp] using h₂

end Continues

namespace ContinuesAt

variable {w : OpWord}

theorem of_continues {m₁ m₂ : Reading α} (h : Continues tail u₀ m₁ m₂) :
    ContinuesAt w tail u₀ m₁ m₂ :=
  fun rest u a c hr => h (w :: rest) u a c hr

theorem advance (b : Bool) : ContinuesAt w tail u₀ (Delta.advance b) (Delta.advance b) := by
  intro rest u a c h
  cases h
  refine ⟨List.suffix_cons w rest, ?_⟩
  simp only [Delta.advance, StateT.run_modify, List.drop_succ_cons, List.drop_zero, Bool.or_assoc]
  rfl

theorem bind {m₁ m₂ : Reading α} {f₁ f₂ : α → Reading β} (hm : ContinuesAt w tail u₀ m₁ m₂)
    (hf : ∀ a, Continues tail u₀ (f₁ a) (f₂ a)) : ContinuesAt w tail u₀ (m₁ >>= f₁) (m₂ >>= f₂) := by
  intro rest u b c h
  rw [StateT.run_bind] at h
  cases h₁ : m₁.run ⟨w :: rest, u⟩ with
  | error e => rw [h₁] at h; cases h
  | ok r =>
    rw [h₁] at h
    obtain ⟨hs₁, h₂⟩ := hm rest u r.1 r.2 h₁
    obtain ⟨hs₂, h₃⟩ := hf r.1 r.2.words r.2.usedVariables b c h
    exact ⟨hs₂.trans hs₁, by rw [StateT.run_bind, h₂]; exact h₃⟩

/-- A value taken from outside the words, and the words still to read from `w` on. -/
theorem lift_bind {e₁ e₂ : Except Fault α} {f₁ f₂ : α → Reading β}
    (h : ∀ a, e₁ = .ok a → e₂ = .ok a) (hf : ∀ a, ContinuesAt w tail u₀ (f₁ a) (f₂ a)) :
    ContinuesAt w tail u₀ (liftM e₁ >>= f₁) (liftM e₂ >>= f₂) := by
  intro rest u b c hr
  cases he : e₁ with
  | error f => rw [he] at hr; cases hr
  | ok a =>
    rw [he, run_liftM_ok_bind] at hr
    rw [h a he, run_liftM_ok_bind]
    exact hf a rest u b c hr

theorem pure (a : α) : ContinuesAt w tail u₀ (Pure.pure a : Reading α) (Pure.pure a) :=
  of_continues (Continues.pure a)

theorem throw (e : Fault) (m₂ : Reading α) : ContinuesAt w tail u₀ (MonadExcept.throw e) m₂ :=
  of_continues (Continues.throw e m₂)

theorem ite {p : Prop} [Decidable p] {m₁ m₂ n₁ n₂ : Reading α} (h₁ : ContinuesAt w tail u₀ m₁ n₁)
    (h₂ : ContinuesAt w tail u₀ m₂ n₂) :
    ContinuesAt w tail u₀ (if p then m₁ else m₂) (if p then n₁ else n₂) := by
  by_cases hp : p
  · simpa only [if_pos hp] using h₁
  · simpa only [if_neg hp] using h₂

end ContinuesAt

/-- A reading that looks at the next word: from a first word both sides read alike, and at the
end of the words the first side ends where the second, seeing the next word of `tail`, ends as
well. -/
theorem Continues.peek_bind {k₁ k₂ : Option OpWord → Reading α}
    (hword : ∀ w, ContinuesAt w tail u₀ (k₁ (some w)) (k₂ (some w)))
    (hend : ∀ u a c, (k₁ none).run ⟨[], u⟩ = .ok (a, c) →
      c.words = [] ∧ (k₂ tail.head?).run ⟨tail, u₀ || u⟩ = .ok (a, ⟨tail, u₀ || c.usedVariables⟩)) :
    Continues tail u₀ (peek >>= k₁) (peek >>= k₂) := by
  intro ws u a c h
  cases ws with
  | nil =>
    obtain ⟨hc, h₂⟩ := hend u a c h
    exact ⟨hc ▸ List.suffix_refl _, by rw [List.nil_append, hc]; exact h₂⟩
  | cons w rest => exact hword w rest u a c h

end Continue

/-! ## Readers that go on -/

section Readers

variable {α : Type} {tail : List OpWord} {u₀ : Bool} {src₁ src₂ : Source}

/-- Sources that differ at most in their text look words up alike, but for the text of a
fault. -/
theorem Source.variableOf_of_ok (hl : src₁.lookup = src₂.lookup) {w : OpWord} {v : Option String}
    (h : src₁.variableOf w = .ok v) : src₂.variableOf w = .ok v := by
  cases w with
  | «variable» n =>
    simp only [Source.variableOf, ← hl] at h ⊢
    split at h
    next => exact h
    next => cases h
  | name n => simpa [Source.variableOf, hl] using h
  | number _ | hex _ | star => exact h

theorem Source.recolour_of_ok (c : Hsba) (t : String) {k : Hsba} (h : src₁.recolour c t = .ok k) :
    src₂.recolour c t = .ok k := by
  unfold Source.recolour at h ⊢
  split at h
  next => exact h
  next => cases h

theorem numberOpt_continues (hl : src₁.lookup = src₂.lookup) (hq : Quiet src₂ tail) :
    Continues tail u₀ (numberOpt src₁) (numberOpt src₂) := by
  unfold numberOpt
  refine Continues.peek_bind (fun w => ?_) ?_
  · cases w with
    | number t => exact (ContinuesAt.advance false).bind fun _ => Continues.pure _
    | _ =>
      refine ContinuesAt.lift_bind (fun v => Source.variableOf_of_ok hl) fun v => ?_
      split
      · refine (ContinuesAt.advance true).bind fun _ => ?_
        split
        · exact Continues.pure _
        · exact Continues.throw _ _
      · exact ContinuesAt.pure _
  · -- at the end the first side finds no number, and neither does the second before `tail`
    intro u a c h
    cases h
    refine ⟨rfl, ?_⟩
    cases tail with
    | nil => rfl
    | cons w rest =>
      obtain ⟨hnum, hvar⟩ := hq w rfl
      cases w with
      | number t => exact absurd rfl (hnum t)
      | _ => simp only [List.head?_cons, hvar, run_liftM_ok_bind]; rfl

theorem number_continues (hl : src₁.lookup = src₂.lookup) (hq : Quiet src₂ tail) (command : String) :
    Continues tail u₀ (number src₁ command) (number src₂ command) := by
  unfold number
  refine (numberOpt_continues hl hq).bind fun x => ?_
  split
  · exact Continues.pure _
  · exact Continues.throw _ _

theorem numbers_continues (hl : src₁.lookup = src₂.lookup) (hq : Quiet src₂ tail) (command : String) :
    ∀ n, Continues tail u₀ (numbers src₁ command n) (numbers src₂ command n)
  | 0 => Continues.pure _
  | n + 1 =>
    (number_continues hl hq command).bind fun _ =>
      (numbers_continues hl hq command n).bind fun _ => Continues.pure _

/-- A reading that takes an optional colour and goes on, where going on from the end of the
words fails: at the end the first side fails, so the second may read a colour of `tail`. -/
theorem colourOpt_bind_continues (hl : src₁.lookup = src₂.lookup) {k₁ k₂ : Option String → Reading α}
    (hk : ∀ x, Continues tail u₀ (k₁ x) (k₂ x)) (hend : ∀ u r, (k₁ none).run ⟨[], u⟩ ≠ .ok r) :
    Continues tail u₀ (colourOpt src₁ >>= k₁) (colourOpt src₂ >>= k₂) := by
  unfold colourOpt
  simp only [bind_assoc]
  refine Continues.peek_bind (fun w => ?_) fun u a c h => absurd h (hend u _)
  simp only [bind_assoc]
  refine ContinuesAt.lift_bind (fun v => Source.variableOf_of_ok hl) fun v => ?_
  split
  · simp only [pure_bind]
    exact ContinuesAt.of_continues (hk none)
  · simp only [bind_assoc]
    refine (ContinuesAt.advance _).bind fun _ => ?_
    split
    · simp only [pure_bind]
      exact hk _
    · exact Continues.throw _ _

/-- A reading that takes the next word and goes on, where going on from the end of the words
fails. -/
theorem take_bind_continues {k₁ k₂ : Option OpWord → Reading α}
    (hk : ∀ x, Continues tail u₀ (k₁ x) (k₂ x)) (hend : ∀ u r, (k₁ none).run ⟨[], u⟩ ≠ .ok r) :
    Continues tail u₀ (take >>= k₁) (take >>= k₂) := by
  unfold take
  simp only [bind_assoc]
  refine Continues.peek_bind (fun w => ?_) fun u a c h => absurd h (hend u _)
  simp only [Option.isSome_some, if_true, bind_assoc, pure_bind]
  exact (ContinuesAt.advance false).bind fun _ => hk _

theorem take_continues_nil : Continues [] u₀ take take := by
  unfold take
  refine Continues.peek_bind (fun w => ?_) fun u a c h => ?_
  · simp only [Option.isSome_some, if_true]
    exact (ContinuesAt.advance false).bind fun _ => Continues.pure _
  · cases h
    exact ⟨rfl, rfl⟩

theorem colour_continues (hl : src₁.lookup = src₂.lookup) (command : String) :
    Continues tail u₀ (colour src₁ command) (colour src₂ command) := by
  unfold colour
  refine colourOpt_bind_continues hl (fun x => ?_) fun u r h => by cases h
  split
  · exact Continues.pure _
  · exact Continues.throw _ _

theorem absolute_continues (t : String) :
    Continues tail u₀ (absolute src₁ t) (absolute src₂ t) := by
  unfold absolute
  exact (Continues.lift fun _ => Source.recolour_of_ok _ _).bind fun _ => Continues.pure _

theorem named_continues (hl : src₁.lookup = src₂.lookup) (hp : src₁.pool = src₂.pool)
    (hq : Quiet src₂ tail) (d : Delta) (w : String) :
    Continues tail u₀ (named src₁ d w) (named src₂ d w) := by
  unfold named
  dsimp only
  -- one branch per command word, read by both sides argument by argument; a reading that may
  -- look past the end of the words is one that fails there on the first side
  refine .ite ?x (.ite ?y (.ite ?z (.ite ?rx (.ite ?ry (.ite ?rz (.ite ?s (.ite ?fx (.ite ?fy
    (.ite ?fz (.ite ?m (.ite ?hue (.ite ?sat (.ite ?brightness (.ite ?alpha (.ite ?blend
    (.ite ?color (.ite ?random (.throw _ _))))))))))))))))))
  case x | y | z | hue | sat | brightness | alpha =>
    exact (number_continues hl hq _).bind fun _ => .pure _
  case rx | ry | rz =>
    exact (number_continues hl hq _).bind fun _ => (Continues.lift fun _ h => h).bind fun _ =>
      .pure _
  case s =>
    refine (number_continues hl hq _).bind fun _ => (numberOpt_continues hl hq).bind fun y => ?_
    cases y with
    | none => exact .pure _
    | some _ => exact (number_continues hl hq _).bind fun _ => .pure _
  case fx | fy | fz => exact .pure _
  case m => exact (numbers_continues hl hq _ _).bind fun _ => .pure _
  case blend =>
    exact (colour_continues hl _).bind fun _ =>
      (Continues.lift fun _ => Source.recolour_of_ok _ _).bind fun _ =>
        (number_continues hl hq _).bind fun _ => .pure _
  case color =>
    refine colourOpt_bind_continues hl (fun t => ?_) fun u r h => by cases h
    cases t with
    | some _ => exact (absolute_continues _).bind fun _ => .pure _
    | none =>
      refine take_bind_continues (fun next => ?_) fun u r h => by cases h
      cases next with
      | some _ =>
        rw [hp]
        exact .ite (.pure _) (.throw _ _)
      | none => exact .throw _ _
  case random =>
    rw [hp]
    exact .pure _

theorem command_continues (hl : src₁.lookup = src₂.lookup) (hp : src₁.pool = src₂.pool)
    (hq : Quiet src₂ tail) (d : Delta) (w : OpWord) :
    Continues tail u₀ (command src₁ d w) (command src₂ d w) := by
  unfold command
  cases w with
  | hex h => exact (absolute_continues _).bind fun _ => .pure _
  | star =>
    refine colourOpt_bind_continues hl (fun t => ?_) fun u r h => by cases h
    cases t with
    | some _ =>
      exact (Continues.lift fun _ => Source.recolour_of_ok _ _).bind fun _ =>
        (number_continues hl hq _).bind fun _ => .pure _
    | none =>
      refine take_bind_continues (fun next => ?_) fun u r h => by cases h
      cases next with
      | some _ =>
        exact .ite ((number_continues hl hq _).bind fun _ =>
          (number_continues hl hq _).bind fun _ => .pure _) (.throw _ _)
      | none => exact .throw _ _
  | name n => exact .ite ((absolute_continues _).bind fun _ => .pure _) (named_continues hl hp hq d n)
  | _ => exact .throw _ _

end Readers

/-! ## The command loop -/

section Loop

variable {tail : List OpWord} {src src₁ src₂ : Source}

theorem commandsFrom_run_nil (fuel : Nat) (d : Delta) (u : Bool) :
    (commandsFrom src fuel d).run ⟨[], u⟩ = .ok (d, ⟨[], u⟩) := by
  cases fuel <;> rfl

/-- One turn of the loop: the next word is taken and its command read. -/
theorem commandsFrom_run_cons (fuel : Nat) (d : Delta) (w : OpWord) (rest : List OpWord) (u : Bool) :
    (commandsFrom src (fuel + 1) d).run ⟨w :: rest, u⟩ =
      (command src d w).run ⟨rest, u || false⟩ >>= fun r => (commandsFrom src fuel r.1).run r.2 :=
  rfl

theorem quiet_nil : Quiet src [] := fun _ hw => by cases hw

/-- A command takes its words from the front. -/
theorem command_suffix {d : Delta} {w : OpWord} {c c' : Cursor} {d' : Delta}
    (h : (command src d w).run c = .ok (d', c')) : c'.words <:+ c.words :=
  have hcont : Continues [] false (command src d w) (command src d w) :=
    command_continues rfl rfl quiet_nil d w
  (hcont c.words c.usedVariables d' c' h).1

/-- **With fuel for every word, the loop reads the same whatever the fuel.** Every turn takes
a word, so the loop stops at the end of the words before the fuel runs out. -/
theorem commandsFrom_fuel (src : Source) :
    ∀ f₁ f₂ (d : Delta) (ws : List OpWord) (u : Bool), ws.length ≤ f₁ → ws.length ≤ f₂ →
      (commandsFrom src f₁ d).run ⟨ws, u⟩ = (commandsFrom src f₂ d).run ⟨ws, u⟩ := by
  intro f₁
  induction f₁ with
  | zero =>
    intro f₂ d ws u h₁ _
    cases ws with
    | nil => rw [commandsFrom_run_nil, commandsFrom_run_nil]
    | cons w rest => simp at h₁
  | succ k ih =>
    intro f₂ d ws u h₁ h₂
    cases ws with
    | nil => rw [commandsFrom_run_nil, commandsFrom_run_nil]
    | cons w rest =>
      obtain ⟨k₂, rfl⟩ : ∃ k₂, f₂ = k₂ + 1 := ⟨f₂ - 1, by simp at h₂; omega⟩
      simp only [List.length_cons] at h₁ h₂
      rw [commandsFrom_run_cons, commandsFrom_run_cons]
      cases hc : (command src d w).run ⟨rest, u || false⟩ with
      | error e => rfl
      | ok r =>
        have hs := (command_suffix hc).length_le
        exact ih k₂ r.1 r.2.words r.2.usedVariables (by simp at hs; omega) (by simp at hs; omega)

theorem commandsFrom_continues_nil (u₀ : Bool) (hl : src₁.lookup = src₂.lookup)
    (hp : src₁.pool = src₂.pool) :
    ∀ fuel d, Continues [] u₀ (commandsFrom src₁ fuel d) (commandsFrom src₂ fuel d)
  | 0, d => Continues.pure d
  | fuel + 1, d => by
    unfold commandsFrom
    refine take_continues_nil.bind fun w => ?_
    split
    · exact Continues.pure d
    · exact (command_continues hl hp quiet_nil d _).bind fun d' =>
        commandsFrom_continues_nil u₀ hl hp fuel d'

/-- **Reading words followed by more reads the first words as they read alone, then the rest
onto the delta they made,** when the rest starts with no word that an optional number could
take. -/
theorem commandsFrom_append (u₀ : Bool) (hl : src₁.lookup = src₂.lookup)
    (hp : src₁.pool = src₂.pool) (hq : Quiet src₂ tail) :
    ∀ fuel (d : Delta) (ws : List OpWord) (u : Bool) (d' : Delta) (c : Cursor), ws.length ≤ fuel →
      (commandsFrom src₁ fuel d).run ⟨ws, u⟩ = .ok (d', c) →
        ∀ f₂, ws.length + tail.length ≤ f₂ →
          (commandsFrom src₂ f₂ d).run ⟨ws ++ tail, u₀ || u⟩ =
            (commandsFrom src₂ tail.length d').run ⟨tail, u₀ || c.usedVariables⟩ := by
  intro fuel
  induction fuel with
  | zero =>
    intro d ws u d' c h₁ h f₂ h₂
    cases ws with
    | nil =>
      rw [commandsFrom_run_nil] at h
      cases h
      exact commandsFrom_fuel src₂ _ _ _ _ _ (by simpa using h₂) (Nat.le_refl _)
    | cons w rest => simp at h₁
  | succ k ih =>
    intro d ws u d' c h₁ h f₂ h₂
    cases ws with
    | nil =>
      rw [commandsFrom_run_nil] at h
      cases h
      exact commandsFrom_fuel src₂ _ _ _ _ _ (by simpa using h₂) (Nat.le_refl _)
    | cons w rest =>
      obtain ⟨k₂, rfl⟩ : ∃ k₂, f₂ = k₂ + 1 := ⟨f₂ - 1, by simp at h₂; omega⟩
      rw [commandsFrom_run_cons] at h
      cases hc : (command src₁ d w).run ⟨rest, u || false⟩ with
      | error e => rw [hc] at h; cases h
      | ok r =>
        rw [hc] at h
        -- the command reads its words as it reads them alone, and leaves the rest and `tail`
        have hcont : Continues tail u₀ (command src₁ d w) (command src₂ d w) :=
          command_continues hl hp hq d w
        obtain ⟨hs, hc₂⟩ := hcont rest _ r.1 r.2 hc
        have hs' := hs.length_le
        simp only [List.length_cons] at h₁ h₂ hs'
        rw [List.cons_append, commandsFrom_run_cons, Bool.or_false, ← Bool.or_false u, hc₂]
        exact ih r.1 r.2.words r.2.usedVariables d' c (by omega) h k₂ (by omega)

end Loop

/-! ## Composing texts -/

section Compose

variable {src : Source}

/-- A name that is no command starts no command. -/
theorem named_of_not_command {n : String} (hn : isCommand n = false) (d : Delta) (c : Cursor) :
    (named src d n).run c = .error (src.fault (.unknownCommand n)) := by
  have hne : ∀ L ∈ commands, (n == L) = false := fun L hL =>
    beq_false_of_ne fun h => by simp [isCommand, h, hL] at hn
  unfold named
  simp (disch := decide) only [hne, Bool.false_or, Bool.false_eq_true, if_false]
  rfl

/-- The first word of commands that read is no number and stands for no variable, under
lookups that name no colour: it is a command, a colour or a colour name. -/
theorem quiet_of_command (hV : ∀ n, Colour.isNamed n = true → src.lookup n = none) {d : Delta}
    {w : OpWord} {c : Cursor} {r : Delta × Cursor} (h : (command src d w).run c = .ok r) :
    (∀ t, w ≠ .number t) ∧ src.variableOf w = .ok none := by
  cases w with
  | number t => cases h
  | «variable» n => cases h
  | hex t => exact ⟨fun _ h => OpWord.noConfusion h, rfl⟩
  | star => exact ⟨fun _ h => OpWord.noConfusion h, rfl⟩
  | name n =>
    refine ⟨fun _ h => OpWord.noConfusion h, ?_⟩
    cases hc : isCommand n with
    | true => simp [Source.variableOf, hc]
    | false =>
      by_cases hcol : Colour.isNamed n = true
      · simp [Source.variableOf, hc, hV n hcol]
      · -- a name that is neither a command nor a colour stops the reading
        have hcmd : command src d (.name n) = named src d n := by simp [command, hc, hcol]
        rw [hcmd, named_of_not_command hc] at h
        cases h

/-- The words of a reading that succeeds start quietly, for any source with its lookups. -/
theorem quiet_of_commandsFrom {src' : Source}
    (hV : ∀ n, Colour.isNamed n = true → src.lookup n = none) {fuel : Nat} {d : Delta}
    {ws : List OpWord} {u : Bool} {r : Delta × Cursor} (hf : ws.length ≤ fuel)
    (h : (commandsFrom src fuel d).run ⟨ws, u⟩ = .ok r) (hl : src.lookup = src'.lookup) :
    Quiet src' ws := by
  unfold Quiet
  intro w hw
  cases ws with
  | nil => cases hw
  | cons w' rest =>
    obtain rfl : w' = w := Option.some.inj hw
    obtain ⟨k, rfl⟩ : ∃ k, fuel = k + 1 := ⟨fuel - 1, by simp at hf; omega⟩
    rw [commandsFrom_run_cons] at h
    cases hc : (command src d w').run ⟨rest, u || false⟩ with
    | error e => rw [hc] at h; cases h
    | ok r' =>
      obtain ⟨hnum, hvar⟩ := quiet_of_command hV hc
      exact ⟨hnum, Source.variableOf_of_ok hl hvar⟩

/-- What a text that reads is: its words, and one edit and one cursor that its commands end
with from whatever delta they start. -/
theorem read_ok_edit {text : String} {lookup : String → Option String} {pool : Pool} {d₀ : Delta}
    (h : read text lookup pool = .ok d₀) :
    ∃ (ws : List OpWord) (e : Edit) (c : Cursor), OpWord.split text = .ok ws ∧
      (∀ d, (commandsFrom ⟨text, lookup, pool⟩ ws.length d).run ⟨ws, false⟩ = .ok (e.apply d, c)) ∧
      d₀ = { e.apply neutral with usesVariables := c.usedVariables } := by
  unfold read at h
  cases hs : OpWord.split text with
  | error f => rw [hs] at h; cases h
  | ok ws =>
    rw [hs] at h
    obtain ⟨o, ho⟩ := commandsFrom_makes_edit ⟨text, lookup, pool⟩ ws.length ⟨ws, false⟩
    cases o with
    | error f =>
      have h' := h
      simp only [bind, Except.bind, ho neutral] at h'
      cases h'
    | ok r =>
      refine ⟨ws, r.1, r.2, rfl, fun d => ho d, ?_⟩
      simp only [bind, Except.bind, ho neutral] at h
      cases h
      rfl

theorem readOnto_of_edit {text : String} {lookup : String → Option String} {pool : Pool}
    {ws : List OpWord} {e : Edit} {c : Cursor} (hs : OpWord.split text = .ok ws)
    (hr : ∀ d, (commandsFrom ⟨text, lookup, pool⟩ ws.length d).run ⟨ws, false⟩ = .ok (e.apply d, c))
    (d : Delta) : readOnto text lookup pool d = .ok { e.apply d with usesVariables := c.usedVariables } := by
  unfold readOnto
  simp only [hs, bind, Except.bind, hr d]
  rfl

/-- **Two operator texts with a blank between them read as the first and then the second.**
Under variables none of which is named like a colour, when `a` and `b` read, each makes one
edit of whatever delta it is read onto, and `a ++ " " ++ b` reads: its delta is the edit of
`a` and then that of `b` made of the neutral delta, so its transform is the product of the
transforms of `a`'s geometry commands and then `b`'s, from the left, its paint and every
channel of its shift, blend target and blend ratio the value `b` writes last, or else the
value `a` writes last, and it uses variables when `a` or `b` does. -/
theorem read_append {lookup : String → Option String} {pool : Pool}
    (hV : ∀ n, Colour.isNamed n = true → lookup n = none) {a b : String} {da db : Delta}
    (ha : read a lookup pool = .ok da) (hb : read b lookup pool = .ok db) :
    ∃ ea eb : Edit,
      (∀ d, readOnto a lookup pool d = .ok { ea.apply d with usesVariables := da.usesVariables }) ∧
      (∀ d, readOnto b lookup pool d = .ok { eb.apply d with usesVariables := db.usesVariables }) ∧
      read (a ++ " " ++ b) lookup pool =
        .ok { (ea.andThen eb).apply neutral with usesVariables := da.usesVariables || db.usesVariables } := by
  obtain ⟨wa, ea, ca, hsa, hra, rfl⟩ := read_ok_edit ha
  obtain ⟨wb, eb, cb, hsb, hrb, rfl⟩ := read_ok_edit hb
  refine ⟨ea, eb, readOnto_of_edit hsa hra, readOnto_of_edit hsb hrb, ?_⟩
  -- `b`'s words start quietly, so `a`'s last command reads as it does alone
  have hq : Quiet ⟨a ++ " " ++ b, lookup, pool⟩ wb :=
    quiet_of_commandsFrom hV (Nat.le_refl _) (hrb neutral) rfl
  have hloop := commandsFrom_append false (by rfl) (by rfl) hq wa.length neutral wa false _ _
    (Nat.le_refl _) (hra neutral) (wa ++ wb).length (by simp)
  -- then `b`'s words read onto the delta `a` made, as they read alone
  have hrest : Continues [] ca.usedVariables
      (commandsFrom ⟨b, lookup, pool⟩ wb.length (ea.apply neutral))
      (commandsFrom ⟨a ++ " " ++ b, lookup, pool⟩ wb.length (ea.apply neutral)) :=
    commandsFrom_continues_nil _ (by rfl) (by rfl) wb.length _
  have hb' := (hrest wb false _ _ (hrb (ea.apply neutral))).2
  simp only [List.append_nil, Bool.or_false] at hb'
  simp only [Bool.false_or] at hloop
  unfold read
  rw [OpWord.split_append hsa hsb]
  simp only [bind, Except.bind, hloop, hb', Edit.apply_andThen]
  rfl

theorem Except.eq_ok_of_toOption {ε α : Type} {x : Except ε α} {a : α} (h : x.toOption = some a) :
    x = .ok a := by
  cases x with
  | error e => cases h
  | ok b => rw [Option.some.inj h]

/-- The flip `fx` and then `random`: the flip's transform and the pool's paint. -/
theorem flip_then_random :
    read "fx" (fun _ => none) Pool.blank =
        .ok { neutral with transform := neutral.transform * Transform.scale (-1.0) 1.0 1.0 } ∧
      read "random" (fun _ => none) Pool.blank =
        .ok { neutral with paint := some (Paint.ofPool Pool.blank) } ∧
      read ("fx" ++ " " ++ "random") (fun _ => none) Pool.blank =
        .ok { neutral with transform := neutral.transform * Transform.scale (-1.0) 1.0 1.0,
                           paint := some (Paint.ofPool Pool.blank) } := by
  -- the texts are split in the kernel
  have hs₁ : OpWord.split "fx" = .ok [.name "fx"] :=
    Except.eq_ok_of_toOption (by decide +kernel)
  have hs₂ : OpWord.split "random" = .ok [.name "random"] :=
    Except.eq_ok_of_toOption (by decide +kernel)
  have hfx : ∀ d, readOnto "fx" (fun _ => none) Pool.blank d =
      .ok { d with transform := d.transform * Transform.scale (-1.0) 1.0 1.0, usesVariables := false } :=
    fun d => by unfold readOnto; rw [hs₁]; rfl
  have hrandom : ∀ d, readOnto "random" (fun _ => none) Pool.blank d =
      .ok { d with paint := some (Paint.ofPool Pool.blank), usesVariables := false } :=
    fun d => by unfold readOnto; rw [hs₂]; rfl
  have ha := hfx neutral
  have hb := hrandom neutral
  obtain ⟨ea, eb, hea, heb, hab⟩ := read_append (fun _ _ => rfl) ha hb
  refine ⟨ha, hb, ?_⟩
  -- the edits are read off the two texts, read onto the neutral delta and onto the flip
  have h₁ : ea.apply neutral = { neutral with transform := neutral.transform * Transform.scale (-1.0) 1.0 1.0 } := by
    have h := (hea neutral).symm.trans (hfx neutral)
    injection h
  have h₂ := (heb (ea.apply neutral)).symm.trans (hrandom (ea.apply neutral))
  injection h₂ with h₂
  rw [hab, Edit.apply_andThen]
  exact congrArg Except.ok (h₂.trans (by rw [h₁]; rfl))

end Compose

end Delta

end ShapeGrammar
