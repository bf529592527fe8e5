import ShapeGrammar.Proofs.Concatenation
/-!
# The arguments of operator commands

What the reader of operator texts takes where a command needs a number or a colour, and the
words it may leave there.

A number is a number word, or a variable whose text reads as a decimal (`Delta.NumberArg`). A
variable is `$name`, which must be defined, or a bare name that is no command and names a
variable (`Delta.IsVariable`). A colour is a variable whose text is a colour name or a
hexadecimal colour, or, for a word that is no variable, a hexadecimal colour or a colour name
(`Delta.ColourArg`): a colour name that names a variable gives the variable's text.

Each reader takes a word that gives its argument, leaves a word that is neither the argument nor
a variable, and fails on any other (`Delta.numberOpt_eq_ok`, `Delta.colourOpt_eq_ok`). The
words of a split are well formed (`OpWord.splitFrom_wellFormed`): no number word shows as a
name, so the words `color` and `*` take by what they show are names.
-/

namespace ShapeGrammar

namespace Colour

/-- Every colour name stands for a hexadecimal colour. -/
theorem parseHex_of_named {t v : String} (h : named? t = some v) : ∃ rgb, parseHex v = .ok rgb := by
  have htable : ∀ p ∈ namedColours, (hexChannels? (α := Float) p.2).isSome := by decide +kernel
  obtain ⟨p, hp, rfl⟩ := Option.map_eq_some_iff.1 h
  obtain ⟨rgb, hrgb⟩ := Option.isSome_iff_exists.1 (htable p (List.mem_of_find?_eq_some hp))
  exact ⟨rgb, by simp [parseHex, hrgb]⟩

/-- What a colour resolves to is a hexadecimal colour. -/
theorem parseHex_of_resolve {s t : String} (h : resolve s = .ok t) : ∃ rgb, parseHex t = .ok rgb := by
  unfold resolve at h
  cases hn : named? s with
  | some v =>
    rw [hn] at h
    cases h
    exact parseHex_of_named hn
  | none =>
    rw [hn] at h
    cases hp : parseHex s with
    | error f => rw [hp] at h; cases h
    | ok rgb =>
      rw [hp] at h
      cases h
      exact ⟨rgb, hp⟩

/-- A hexadecimal colour resolves. -/
theorem resolve_of_parseHex {t : String} {rgb : Float × Float × Float} (h : parseHex t = .ok rgb) :
    ∃ v, resolve t = .ok v := by
  cases hn : named? t with
  | some v => exact ⟨v, by simp [resolve, hn]⟩
  | none =>
    refine ⟨t, ?_⟩
    unfold resolve
    rw [hn, h]
    rfl

end Colour

namespace Hsba

/-- A colour takes the channels of a text exactly when the text resolves. -/
theorem withHex_ok_iff (c : Hsba) (t : String) :
    (∃ k, c.withHex t = .ok k) ↔ ∃ r, Colour.resolve t = .ok r := by
  constructor
  · rintro ⟨k, hk⟩
    cases hr : Colour.resolve t with
    | ok r => exact ⟨r, rfl⟩
    | error f => simp [withHex, hr, bind, Except.bind] at hk
  · rintro ⟨r, hr⟩
    obtain ⟨rgb, hrgb⟩ := Colour.parseHex_of_resolve hr
    exact ⟨c.withRgb rgb.1 rgb.2.1 rgb.2.2, by
      simp [withHex, hr, hrgb, bind, Except.bind, pure, Except.pure]⟩

end Hsba

namespace OpWord

/-! ## The words the splitter makes -/

/-- The word is one the splitter makes: the text of a number word starts with a minus sign, a
point or a digit, so that no number word shows as a name. -/
def wellFormed : OpWord → Bool
  | .number t => t.toList.head?.any fun c => c == '-' || c == '.' || Text.isDigit c
  | _ => true

/-- An unsigned number at the front starts with a point or a digit. -/
theorem unsignedLength_front {cs : List Char} {n : Nat} (h : unsignedLength cs = some n) :
    0 < n ∧ cs.head?.any (fun c => c == '.' || Text.isDigit c) = true := by
  unfold unsignedLength at h
  dsimp only at h
  split at h
  · rename_i hw
    have hn : 0 < n := by
      split at h <;> (simp only [Option.some.injEq] at h; omega)
    cases cs with
    | nil => simp [Text.span] at hw
    | cons c rest =>
      cases hc : Text.isDigit c with
      | false => simp [Text.span, hc] at hw
      | true => exact ⟨hn, by simp [hc]⟩
  · split at h
    · split at h
      · simp only [Option.some.injEq] at h
        exact ⟨by omega, by simp⟩
      · cases h
    · cases h

/-- The words at the front of a text are well formed. -/
theorem atFront_wellFormed {cs : List Char} {w : OpWord} {n : Nat} (h : atFront cs = some (w, n)) :
    w.wellFormed = true := by
  cases w with
  | number t =>
    -- only the two number branches make a number word; its text is a slice from the front
    unfold atFront at h
    dsimp only at h
    split at h
    · cases h
    · split at h
      · cases h
      · obtain ⟨m, -, hwn⟩ := Option.map_eq_some_iff.1 h
        cases hwn
        simp [wellFormed, Text.slice]
      · split at h <;> cases h
      · cases h
      · split at h <;> cases h
      · obtain ⟨m, hm, hwn⟩ := Option.map_eq_some_iff.1 h
        simp only [Prod.mk.injEq, OpWord.number.injEq] at hwn
        obtain ⟨rfl, rfl⟩ := hwn
        obtain ⟨hpos, hfront⟩ := unsignedLength_front hm
        obtain ⟨k, rfl⟩ : ∃ k, m = k + 1 := ⟨m - 1, by omega⟩
        cases cs with
        | nil => cases hfront
        | cons c rest =>
          simp only [List.head?_cons, Option.any_some, Bool.or_eq_true, beq_iff_eq] at hfront
          simp only [wellFormed, Text.slice, List.drop_zero, List.take_succ_cons,
            String.toList_ofList, List.head?_cons, Option.any_some, Bool.or_eq_true, beq_iff_eq]
          rcases hfront with h | h
          · exact .inl (.inr h)
          · exact .inr h
  | _ => rfl

/-- Every word of a split is well formed. -/
theorem splitFrom_wellFormed (text : String) (cs : List Char) :
    ∀ ws, splitFrom text cs = .ok ws → ∀ w ∈ ws, w.wellFormed = true := by
  fun_induction splitFrom text cs with
  | case1 => intro ws h w hw; cases h; cases hw
  | case2 c rest hsep ih => exact ih
  | case3 c rest hsep w n hfront ih =>
    intro ws h
    cases hr : splitFrom text (rest.drop (n - 1)) with
    | error f => rw [hr] at h; cases h
    | ok ws' =>
      rw [hr] at h
      cases h
      intro w' hw'
      rcases List.mem_cons.1 hw' with rfl | hw'
      · exact atFront_wellFormed hfront
      · exact ih ws' hr w' hw'
  | case4 c rest hsep hfront => intro ws h; cases h

/-- A well-formed word that is no variable and no hexadecimal colour, and shows as a word that
may follow `color` or `*`, is the name it shows. -/
theorem eq_name_of_shown {w : OpWord} (hw : w.wellFormed = true) (hh : ∀ h, w ≠ .hex h)
    (hv : ∀ n, w ≠ .variable n) (hs : w.shown ∈ ["random", "#?", "h", "s", "b"]) :
    w = .name w.shown := by
  rcases w with n | t | t | _ | n
  · rfl
  · simp only [shown, List.mem_cons, List.not_mem_nil, or_false] at hs
    rcases hs with rfl | rfl | rfl | rfl | rfl <;> exact absurd hw (by decide)
  · exact absurd rfl (hh t)
  · exact absurd hs (by decide)
  · exact absurd rfl (hv n)

end OpWord

namespace Delta

/-! ## Variables, numbers and colours -/

section Arguments

variable (lookup : String → Option String)

/-- The text of the variable that the reader takes a word for: `$name` stands for the variable
`name`, and a bare name that is no command for the variable of that name. -/
def boundValue : OpWord → Option String
  | .variable n => lookup n
  | .name w => if isCommand w then none else lookup w
  | _ => none

/-- The reader takes the word for a variable: a `$name`, defined or not, or a bare name that is
no command and names a variable. -/
def IsVariable (w : OpWord) : Prop := (∃ n, w = .variable n) ∨ (boundValue lookup w).isSome

/-- The word gives the number `x` where a command needs one: a number word, or a variable whose
text reads as the decimal `x`. -/
inductive NumberArg : OpWord → Float → Prop
  | number (t : String) : NumberArg (.number t) ((Number.readFloat? t).getD 0.0)
  | bound {w : OpWord} {v : String} {x : Float} (hv : boundValue lookup w = some v)
      (hx : Number.readFloat? v = some x) : NumberArg w x

/-- The word gives a colour where a command takes one: a variable whose text is a colour name or
a hexadecimal colour, or, when the word is no variable, a hexadecimal colour or a colour name. -/
inductive ColourArg : OpWord → Prop
  | bound {w : OpWord} {v r : String} (hv : boundValue lookup w = some v)
      (hr : Colour.resolve v = .ok r) : ColourArg w
  | hex {h r : String} (hr : Colour.resolve h = .ok r) : ColourArg (.hex h)
  | named {n : String} (hv : boundValue lookup (.name n) = none) (hn : Colour.isNamed n = true) :
      ColourArg (.name n)

end Arguments

/-! ## The readers of arguments -/

section Readers

variable {src : Source} {u : Bool}

theorem except_ok_bind {ε α β : Type} (a : α) (f : α → Except ε β) :
    (Except.ok a >>= f) = f a :=
  rfl

theorem except_error_bind {ε α β : Type} (e : ε) (f : α → Except ε β) :
    (Except.error e >>= f) = .error e :=
  rfl

theorem except_pure {ε α : Type} (a : α) : (pure a : Except ε α) = .ok a := rfl

/-- A reading followed by another succeeds when the first does and the second does from where it
left the words. -/
theorem run_bind_eq_ok {α β : Type} {m : Reading α} {f : α → Reading β} {c : Cursor}
    {r : β × Cursor} :
    (m >>= f).run c = .ok r ↔ ∃ a c', m.run c = .ok (a, c') ∧ (f a).run c' = .ok r := by
  rw [StateT.run_bind]
  cases m.run c with
  | error e => simp [bind, Except.bind]
  | ok p =>
    simp only [bind, Except.bind]
    exact ⟨fun h => ⟨p.1, p.2, rfl, h⟩, fun ⟨a, c', hp, h⟩ => by
      obtain rfl := Except.ok.inj hp
      exact h⟩

/-- The reader fails on an undefined `$name` and otherwise gives the text the word stands for. -/
theorem variableOf_eq_ok_iff {w : OpWord} {o : Option String} :
    src.variableOf w = .ok o ↔
      boundValue src.lookup w = o ∧ ∀ n, w = .variable n → src.lookup n ≠ none := by
  rcases w with w | t | t | _ | n
  · simp [Source.variableOf, boundValue]
  · simp [Source.variableOf, boundValue]
  · simp [Source.variableOf, boundValue]
  · simp [Source.variableOf, boundValue]
  · cases hn : src.lookup n <;> simp [Source.variableOf, boundValue, hn]

theorem variableOf_of_bound {w : OpWord} {v : String} (hv : boundValue src.lookup w = some v) :
    src.variableOf w = .ok (some v) := by
  refine variableOf_eq_ok_iff.2 ⟨hv, ?_⟩
  rintro n rfl
  simp only [boundValue] at hv
  simp [hv]

theorem variableOf_of_not_variable {w : OpWord} (hv : ¬ IsVariable src.lookup w) :
    src.variableOf w = .ok none := by
  refine variableOf_eq_ok_iff.2 ⟨?_, ?_⟩
  · cases hb : boundValue src.lookup w with
    | none => rfl
    | some v => exact absurd (.inr (by simp [hb])) hv
  · rintro n rfl
    exact absurd (.inl ⟨n, rfl⟩) hv

/-- An undefined `$name` or a bound word whose text is no number stops the reader where a
number may stand. -/
theorem variable_fails {w : OpWord} (hv : IsVariable src.lookup w)
    (hx : ¬ ∃ x, NumberArg src.lookup w x) : (∃ n, w = .variable n ∧ src.lookup n = none) ∨
      ∃ v, boundValue src.lookup w = some v ∧ Number.readFloat? v = none := by
  rcases hv with ⟨n, rfl⟩ | hb
  · cases hn : src.lookup n with
    | none => exact .inl ⟨n, rfl, hn⟩
    | some v =>
      refine .inr ⟨v, by simp [boundValue, hn], ?_⟩
      cases hr : Number.readFloat? v with
      | none => rfl
      | some x => exact absurd ⟨x, .bound (by simp [boundValue, hn]) hr⟩ hx
  · obtain ⟨v, hv⟩ := Option.isSome_iff_exists.1 hb
    refine .inr ⟨v, hv, ?_⟩
    cases hr : Number.readFloat? v with
    | none => rfl
    | some x => exact absurd ⟨x, .bound hv hr⟩ hx

/-- Where a number may stand, a word that gives one is taken. -/
theorem numberOpt_of_arg {w : OpWord} {x : Float} (h : NumberArg src.lookup w x)
    (ws : List OpWord) : ∃ u', (numberOpt src).run ⟨w :: ws, u⟩ = .ok (some x, ⟨ws, u'⟩) := by
  cases h with
  | number t => exact ⟨_, rfl⟩
  | @bound w v x hv hx =>
    have hvar := variableOf_of_bound hv
    refine ⟨true, ?_⟩
    rcases w with w | t | t | _ | n
    all_goals simp_all [numberOpt, peek, advance, boundValue, except_ok_bind, except_pure]

/-- Where a number may stand, a word that is no number and no variable is left to the next
command. -/
theorem numberOpt_of_not {w : OpWord} (hn : ∀ t, w ≠ .number t) (hv : ¬ IsVariable src.lookup w)
    (ws : List OpWord) : (numberOpt src).run ⟨w :: ws, u⟩ = .ok (none, ⟨w :: ws, u⟩) := by
  have hvar := variableOf_of_not_variable hv
  rcases w with w | t | t | _ | n
  · simp [numberOpt, peek, hvar, except_ok_bind, except_pure]
  · exact absurd rfl (hn t)
  · simp [numberOpt, peek, hvar, except_ok_bind, except_pure]
  · simp [numberOpt, peek, hvar, except_ok_bind, except_pure]
  · exact absurd (.inl ⟨n, rfl⟩) hv

/-- Where a number may stand, a variable that gives none stops the reader. -/
theorem numberOpt_of_fails {w : OpWord} (hv : IsVariable src.lookup w)
    (hx : ¬ ∃ x, NumberArg src.lookup w x) (ws : List OpWord) :
    ∃ f, (numberOpt src).run ⟨w :: ws, u⟩ = .error f := by
  rcases variable_fails hv hx with ⟨n, rfl, hn⟩ | ⟨v, hb, hr⟩
  · simp [numberOpt, peek, Source.variableOf, hn, except_error_bind]
  · have hvar := variableOf_of_bound hb
    rcases w with w | t | t | _ | n
    -- the reading stops at the throw, whose form `simp` leaves depends on the simp set
    all_goals simp_all [numberOpt, peek, advance, boundValue, except_ok_bind] <;> exact ⟨_, rfl⟩

/-- **What the reader does where a number may stand**: it takes a word that gives one, and
leaves the end or a word that is no number and no variable; on any other word it fails. -/
theorem numberOpt_eq_ok {ws : List OpWord} {o : Option Float} {c : Cursor}
    (h : (numberOpt src).run ⟨ws, u⟩ = .ok (o, c)) :
    (o = none ∧ c = ⟨ws, u⟩ ∧
        ∀ w ∈ ws.head?, (∀ t, w ≠ .number t) ∧ ¬ IsVariable src.lookup w) ∨
      ∃ x w, o = some x ∧ ws = w :: c.words ∧ NumberArg src.lookup w x := by
  rcases ws with _ | ⟨w, ws⟩
  · cases h
    exact .inl ⟨rfl, rfl, by simp⟩
  by_cases hx : ∃ x, NumberArg src.lookup w x
  · obtain ⟨x, hx⟩ := hx
    obtain ⟨u', h'⟩ := numberOpt_of_arg hx ws (u := u)
    rw [h'] at h
    cases h
    exact .inr ⟨x, w, rfl, rfl, hx⟩
  by_cases hv : IsVariable src.lookup w
  · obtain ⟨f, hf⟩ := numberOpt_of_fails hv hx ws (u := u)
    rw [hf] at h
    cases h
  · have hn : ∀ t, w ≠ .number t := by
      rintro t rfl
      exact hx ⟨_, .number t⟩
    rw [numberOpt_of_not hn hv] at h
    cases h
    exact .inl ⟨rfl, rfl, by simpa using ⟨hn, hv⟩⟩

theorem number_of_arg {w : OpWord} {x : Float} (h : NumberArg src.lookup w x) (command : String)
    (ws : List OpWord) : ∃ u', (number src command).run ⟨w :: ws, u⟩ = .ok (x, ⟨ws, u'⟩) := by
  obtain ⟨u', h'⟩ := numberOpt_of_arg h ws (u := u)
  exact ⟨u', by simp [number, StateT.run_bind, h', except_ok_bind, except_pure]⟩

/-- Where a number must stand, the reader takes a word that gives one, or fails. -/
theorem number_eq_ok {command : String} {ws : List OpWord} {x : Float} {c : Cursor}
    (h : (number src command).run ⟨ws, u⟩ = .ok (x, c)) :
    ∃ w, ws = w :: c.words ∧ NumberArg src.lookup w x := by
  unfold number at h
  obtain ⟨o, c', ho, hk⟩ := run_bind_eq_ok.1 h
  rcases numberOpt_eq_ok ho with ⟨rfl, rfl, -⟩ | ⟨y, w, rfl, hws, hy⟩
  · cases hk
  · cases hk
    exact ⟨w, hws, hy⟩

theorem numbers_of_args (command : String) :
    ∀ (args ws : List OpWord) (u : Bool), (∀ w ∈ args, ∃ x, NumberArg src.lookup w x) →
      ∃ xs u', (numbers src command args.length).run ⟨args ++ ws, u⟩ = .ok (xs, ⟨ws, u'⟩)
  | [], ws, u, _ => ⟨[], u, rfl⟩
  | w :: args, ws, u, h => by
    obtain ⟨x, hx⟩ := h w (by simp)
    obtain ⟨u₁, h₁⟩ := number_of_arg hx command (args ++ ws) (u := u)
    obtain ⟨xs, u₂, h₂⟩ := numbers_of_args command args ws u₁ fun w hw => h w (by simp [hw])
    exact ⟨x :: xs, u₂, by
      simp [numbers, StateT.run_bind, h₁, h₂, except_ok_bind]⟩

theorem numbers_eq_ok (command : String) :
    ∀ (n : Nat) {ws : List OpWord} {u : Bool} {xs : List Float} {c : Cursor},
      (numbers src command n).run ⟨ws, u⟩ = .ok (xs, c) →
        ∃ args, ws = args ++ c.words ∧ args.length = n ∧
          ∀ w ∈ args, ∃ x, NumberArg src.lookup w x
  | 0, ws, u, xs, c, h => by
    cases h
    exact ⟨[], rfl, rfl, by simp⟩
  | n + 1, ws, u, xs, c, h => by
    obtain ⟨x, c₁, h₁, h⟩ := run_bind_eq_ok.1 h
    obtain ⟨xs', c₂, h₂, h⟩ := run_bind_eq_ok.1 h
    cases h
    obtain ⟨w, rfl, hw⟩ := number_eq_ok h₁
    obtain ⟨args, hargs, hlen, hall⟩ := numbers_eq_ok command n h₂
    refine ⟨w :: args, by rw [hargs]; rfl, by simp [hlen], ?_⟩
    intro w' hw'
    rcases List.mem_cons.1 hw' with rfl | hw'
    · exact ⟨x, hw⟩
    · exact hall w' hw'

/-- Where a colour may stand, a word that gives one is taken, as what it resolves to. -/
theorem colourOpt_of_arg {w : OpWord} (h : ColourArg src.lookup w) (ws : List OpWord) :
    ∃ s t u', (colourOpt src).run ⟨w :: ws, u⟩ = .ok (some t, ⟨ws, u'⟩) ∧
      Colour.resolve s = .ok t := by
  cases h with
  | @bound w v r hv hr =>
    have hvar := variableOf_of_bound hv
    refine ⟨v, r, true, ?_, hr⟩
    rcases w with w | t | t | _ | n
    all_goals simp_all [colourOpt, peek, advance, boundValue, except_ok_bind, except_pure]
  | @hex h r hr =>
    refine ⟨h, r, u, ?_, hr⟩
    simp [colourOpt, peek, advance, Source.variableOf, hr, except_ok_bind, except_pure]
  | @named n hv hn =>
    have hvar : src.variableOf (.name n) = .ok none := variableOf_eq_ok_iff.2 ⟨hv, by simp⟩
    obtain ⟨v, hv'⟩ := Option.isSome_iff_exists.1 hn
    refine ⟨n, v, u, ?_, by simp [Colour.resolve, hv']⟩
    simp [colourOpt, peek, advance, hvar, Colour.isNamed, hv', Colour.resolve, except_ok_bind,
      except_pure]

/-- Where a colour may stand, a word that is no variable, no hexadecimal colour and no colour
name is left to the next command. -/
theorem colourOpt_of_not {w : OpWord} (hv : ¬ IsVariable src.lookup w) (hh : ∀ h, w ≠ .hex h)
    (hn : ∀ n, w = .name n → Colour.isNamed n = false) (ws : List OpWord) :
    (colourOpt src).run ⟨w :: ws, u⟩ = .ok (none, ⟨w :: ws, u⟩) := by
  have hvar := variableOf_of_not_variable hv
  rcases w with w | t | t | _ | n
  · simp [colourOpt, peek, hvar, hn w rfl, except_ok_bind, except_pure]
  · simp [colourOpt, peek, hvar, except_ok_bind, except_pure]
  · exact absurd rfl (hh t)
  · simp [colourOpt, peek, hvar, except_ok_bind, except_pure]
  · exact absurd (.inl ⟨n, rfl⟩) hv

/-- Where a colour may stand, a variable that gives none, or a hexadecimal word that is no
colour, stops the reader. -/
theorem colourOpt_of_fails {w : OpWord} (hc : ¬ ColourArg src.lookup w)
    (hw : IsVariable src.lookup w ∨ ∃ h, w = .hex h) (ws : List OpWord) :
    ∃ f, (colourOpt src).run ⟨w :: ws, u⟩ = .error f := by
  rcases hw with (⟨n, rfl⟩ | hb) | ⟨h, rfl⟩
  · cases hn : src.lookup n with
    | none => simp [colourOpt, peek, Source.variableOf, hn, except_error_bind]
    | some v =>
      have hb : boundValue src.lookup (.variable n) = some v := by simp [boundValue, hn]
      have hvar := variableOf_of_bound hb
      cases hr : Colour.resolve v with
      | ok r => exact absurd (.bound hb hr) hc
      | error e =>
        simp [colourOpt, peek, advance, hvar, hr, except_ok_bind]
        exact ⟨_, rfl⟩
  · obtain ⟨v, hv⟩ := Option.isSome_iff_exists.1 hb
    have hvar := variableOf_of_bound hv
    cases hr : Colour.resolve v with
    | ok r => exact absurd (.bound hv hr) hc
    | error e =>
      rcases w with w | t | t | _ | n
      all_goals simp_all [colourOpt, peek, advance, boundValue, except_ok_bind] <;> exact ⟨_, rfl⟩
  · cases hr : Colour.resolve h with
    | ok r => exact absurd (.hex hr) hc
    | error e =>
      simp [colourOpt, peek, advance, Source.variableOf, hr, except_ok_bind]
      exact ⟨_, rfl⟩

/-- **What the reader does where a colour may stand**: it takes a word that gives one, and
leaves the end or a word that is no variable, no hexadecimal colour and no colour name; on any
other word it fails. -/
theorem colourOpt_eq_ok {ws : List OpWord} {o : Option String} {c : Cursor}
    (h : (colourOpt src).run ⟨ws, u⟩ = .ok (o, c)) :
    (o = none ∧ c = ⟨ws, u⟩ ∧
        ∀ w ∈ ws.head?, ¬ IsVariable src.lookup w ∧ (∀ h, w ≠ .hex h) ∧
        ∀ n, w = .name n → Colour.isNamed n = false) ∨
      ∃ t w, o = some t ∧ ws = w :: c.words ∧ ColourArg src.lookup w ∧
        ∃ s, Colour.resolve s = .ok t := by
  rcases ws with _ | ⟨w, ws⟩
  · cases h
    exact .inl ⟨rfl, rfl, by simp⟩
  by_cases hc : ColourArg src.lookup w
  · obtain ⟨s, t, u', h', hr⟩ := colourOpt_of_arg hc ws (u := u)
    rw [h'] at h
    cases h
    exact .inr ⟨t, w, rfl, rfl, hc, s, hr⟩
  by_cases hf : IsVariable src.lookup w ∨ ∃ h, w = .hex h
  · obtain ⟨f, hf⟩ := colourOpt_of_fails hc hf ws (u := u)
    rw [hf] at h
    cases h
  have hv : ¬ IsVariable src.lookup w := fun hv => hf (.inl hv)
  have hh : ∀ h, w ≠ .hex h := fun h hw => hf (.inr ⟨h, hw⟩)
  -- a colour name that is no variable would have given a colour
  have hn : ∀ n, w = .name n → Colour.isNamed n = false := by
    rintro n rfl
    cases hnamed : Colour.isNamed n with
    | false => rfl
    | true =>
      have hb : boundValue src.lookup (.name n) = none :=
        Option.not_isSome_iff_eq_none.1 fun hb => hv (.inr hb)
      exact absurd (.named hb hnamed) hc
  rw [colourOpt_of_not hv hh hn] at h
  cases h
  exact .inl ⟨rfl, rfl, by simpa using ⟨hv, hh, hn⟩⟩

theorem colour_of_arg {w : OpWord} (h : ColourArg src.lookup w) (command : String)
    (ws : List OpWord) :
    ∃ s t u', (colour src command).run ⟨w :: ws, u⟩ = .ok (t, ⟨ws, u'⟩) ∧
      Colour.resolve s = .ok t := by
  obtain ⟨s, t, u', h', hr⟩ := colourOpt_of_arg h ws (u := u)
  exact ⟨s, t, u', by simp [colour, StateT.run_bind, h', except_ok_bind, except_pure], hr⟩

/-- Where a colour must stand, the reader takes a word that gives one, or fails. -/
theorem colour_eq_ok {command : String} {ws : List OpWord} {t : String} {c : Cursor}
    (h : (colour src command).run ⟨ws, u⟩ = .ok (t, c)) :
    ∃ w, ws = w :: c.words ∧ ColourArg src.lookup w ∧ ∃ s, Colour.resolve s = .ok t := by
  unfold colour at h
  obtain ⟨o, c', ho, hk⟩ := run_bind_eq_ok.1 h
  rcases colourOpt_eq_ok ho with ⟨rfl, rfl, -⟩ | ⟨t', w, rfl, hws, hw, hr⟩
  · cases hk
  · cases hk
    exact ⟨w, hws, hw, hr⟩

theorem take_run_cons (w : OpWord) (ws : List OpWord) :
    take.run ⟨w :: ws, u⟩ = .ok (some w, ⟨ws, u || false⟩) :=
  rfl

theorem run_map_of_ok {α β : Type} {m : Reading α} {g : α → β} {c c' : Cursor} {a : α}
    (h : m.run c = .ok (a, c')) : (g <$> m).run c = .ok (g a, c') := by
  rw [StateT.run_map, h]
  rfl

theorem run_map_eq_ok {α β : Type} {m : Reading α} {g : α → β} {c c' : Cursor} {b : β}
    (h : (g <$> m).run c = .ok (b, c')) : ∃ a, m.run c = .ok (a, c') := by
  rw [StateT.run_map] at h
  cases hm : m.run c with
  | error f => rw [hm] at h; cases h
  | ok p =>
    rw [hm] at h
    cases h
    exact ⟨p.1, rfl⟩

theorem run_pure_eq_ok {α : Type} {a b : α} {c c' : Cursor}
    (h : (pure a : Reading α).run c = .ok (b, c')) : c' = c := by
  cases h
  rfl

/-- A step of plain computation inside a reading takes no word. -/
theorem run_liftM {α : Type} (e : Except Fault α) (c : Cursor) :
    (liftM e : Reading α).run c = e.map fun a => (a, c) := by
  cases e <;> rfl

theorem Source.recolour_ok_iff (src : Source) (c : Hsba) (t : String) :
    (∃ k, src.recolour c t = .ok k) ↔ ∃ r, Colour.resolve t = .ok r := by
  rw [← Hsba.withHex_ok_iff c t]
  unfold Source.recolour
  cases c.withHex t <;> simp

/-- A colour taken from the words is one a colour can be recoloured to. -/
theorem Source.recolour_of_resolve (src : Source) {s t : String} (h : Colour.resolve s = .ok t)
    (c : Hsba) :
    ∃ k, src.recolour c t = .ok k := by
  obtain ⟨rgb, hrgb⟩ := Colour.parseHex_of_resolve h
  exact (src.recolour_ok_iff c t).2 (Colour.resolve_of_parseHex hrgb)

theorem run_liftM_eq_ok {α : Type} {e : Except Fault α} {c c' : Cursor} {a : α}
    (h : (liftM e : Reading α).run c = .ok (a, c')) : e = .ok a ∧ c' = c := by
  rw [run_liftM] at h
  cases he : e with
  | error f => rw [he] at h; cases h
  | ok b =>
    rw [he] at h
    cases h
    exact ⟨rfl, rfl⟩

theorem absolute_run (t : String) (c : Cursor) :
    (absolute src t).run c = (src.recolour Hsba.black t).map fun k => (Paint.ofHsba k, c) := by
  unfold absolute
  cases src.recolour Hsba.black t <;> rfl

/-- Paint from a colour takes no word, and is made exactly when the colour resolves. -/
theorem absolute_eq_ok {t : String} {c c' : Cursor} {p : Paint}
    (h : (absolute src t).run c = .ok (p, c')) : c' = c ∧ ∃ r, Colour.resolve t = .ok r := by
  rw [absolute_run] at h
  cases hk : src.recolour Hsba.black t with
  | error f => rw [hk] at h; cases h
  | ok k =>
    rw [hk] at h
    cases h
    exact ⟨rfl, (src.recolour_ok_iff Hsba.black t).1 ⟨k, hk⟩⟩

end Readers

end Delta

end ShapeGrammar
