import ShapeGrammar.Proofs.OperatorArguments
/-!
# The grammar of operator texts

An operator text reads exactly when its words are commands, each followed by its arguments
(`Delta.read_ok_iff_accepts`). The grammar is `Delta.Accepts`, a sequence of `Delta.Phrase`s:

* `x`, `y`, `z`, `hue`, `h`, `sat`, `brightness`, `b`, `alpha`, `a` take a number, and `rx`,
  `ry`, `rz` an angle whose turn in radians is finite;
* `s` takes one number, or three when a number or a variable follows its first: the reader
  commits to the second factor before it looks at it;
* `m` takes nine numbers; `fx`, `fy`, `fz`, `random`, `#?`, a colour name and a hexadecimal
  colour take none;
* `color` takes a colour, or the word `random` or `#?`; `blend` and `*` take a colour and a
  number, and `*` may take `h`, `s` or `b` and two numbers instead.

Numbers and colours are the arguments of `ShapeGrammar.Proofs.OperatorArguments`. Reading one
command is a phrase (`Delta.phrase_of_command`), every phrase reads from any delta
(`Delta.command_of_phrase`), and the loop over the words reads them exactly when they are
phrases one after another.
-/

namespace ShapeGrammar

namespace Delta

/-! ## The grammar -/

section Grammar

variable (lookup : String → Option String)

/-- The commands that take one number. -/
def numberCommands : List String := ["x", "y", "z", "hue", "h", "sat", "brightness", "b", "alpha", "a"]

/-- The commands that take an angle in degrees. -/
def turnCommands : List String := ["rx", "ry", "rz"]

/-- The commands that take nothing. -/
def bareCommands : List String := ["fx", "fy", "fz", "random", "#?"]

/-- One command and its arguments at the front of the words, before the words `rest`. -/
inductive Phrase : List OpWord → List OpWord → Prop
  | number {c : String} {w : OpWord} {x : Float} {rest : List OpWord} (hc : c ∈ numberCommands)
      (hw : NumberArg lookup w x) : Phrase (.name c :: w :: rest) rest
  /-- A turn, by an angle whose turn in radians is finite. -/
  | turn {c : String} {w : OpWord} {x : Float} {rest : List OpWord} (hc : c ∈ turnCommands)
      (hw : NumberArg lookup w x) (hx : (x * radiansPerDegree).isInf = false) :
      Phrase (.name c :: w :: rest) rest
  /-- `s` and one factor, where no number and no variable follows. -/
  | scaleOne {w : OpWord} {x : Float} {rest : List OpWord} (hw : NumberArg lookup w x)
      (hnext : ∀ w' ∈ rest.head?, (∀ t, w' ≠ .number t) ∧ ¬ IsVariable lookup w') :
      Phrase (.name "s" :: w :: rest) rest
  | scaleThree {w₁ w₂ w₃ : OpWord} {x₁ x₂ x₃ : Float} {rest : List OpWord}
      (h₁ : NumberArg lookup w₁ x₁) (h₂ : NumberArg lookup w₂ x₂) (h₃ : NumberArg lookup w₃ x₃) :
      Phrase (.name "s" :: w₁ :: w₂ :: w₃ :: rest) rest
  | matrix {args rest : List OpWord} (hlen : args.length = 9)
      (hargs : ∀ w ∈ args, ∃ x, NumberArg lookup w x) : Phrase (.name "m" :: (args ++ rest)) rest
  | bare {c : String} {rest : List OpWord} (hc : c ∈ bareCommands) : Phrase (.name c :: rest) rest
  | colourName {n : String} {rest : List OpWord} (hc : isCommand n = false)
      (hn : Colour.isNamed n = true) : Phrase (.name n :: rest) rest
  | hex {h r : String} {rest : List OpWord} (hr : Colour.resolve h = .ok r) :
      Phrase (.hex h :: rest) rest
  | color {w : OpWord} {rest : List OpWord} (hw : ColourArg lookup w) :
      Phrase (.name "color" :: w :: rest) rest
  | colorRandom {c : String} {rest : List OpWord} (hc : c = "random" ∨ c = "#?") :
      Phrase (.name "color" :: .name c :: rest) rest
  | blend {w w' : OpWord} {x : Float} {rest : List OpWord} (hw : ColourArg lookup w)
      (hw' : NumberArg lookup w' x) : Phrase (.name "blend" :: w :: w' :: rest) rest
  | starColour {w w' : OpWord} {x : Float} {rest : List OpWord} (hw : ColourArg lookup w)
      (hw' : NumberArg lookup w' x) : Phrase (.star :: w :: w' :: rest) rest
  | starChannel {ch : String} {w₁ w₂ : OpWord} {x₁ x₂ : Float} {rest : List OpWord}
      (hch : ch = "h" ∨ ch = "s" ∨ ch = "b") (h₁ : NumberArg lookup w₁ x₁)
      (h₂ : NumberArg lookup w₂ x₂) : Phrase (.star :: .name ch :: w₁ :: w₂ :: rest) rest

/-- The words are commands, each with its arguments, one after another. -/
inductive Accepts : List OpWord → Prop
  | nil : Accepts []
  | cons {ws rest : List OpWord} (hp : Phrase lookup ws rest) (hrest : Accepts rest) : Accepts ws

end Grammar

/-! ## Commands -/

section Commands

variable {src : Source} {u : Bool}

theorem commands_perm :
    commands.Perm (numberCommands ++ turnCommands ++ bareCommands ++ ["s", "m", "blend", "color"]) := by
  decide

/-- The commands, by the arguments they take. -/
theorem isCommand_iff {n : String} :
    isCommand n = true ↔ n ∈ numberCommands ∨ n ∈ turnCommands ∨
    n ∈ bareCommands ∨ n = "s" ∨ n = "m" ∨ n = "blend" ∨ n = "color" := by
  rw [isCommand, List.contains_iff_mem, commands_perm.mem_iff]
  simp only [List.mem_append, List.mem_cons, List.not_mem_nil, or_false, or_assoc]

/-- A command that takes one number makes its delta from that number alone. -/
theorem named_number (src : Source) {c : String} (hc : c ∈ numberCommands) (d : Delta) :
    ∃ g : Float → Delta, named src d c = g <$> number src c := by
  simp only [numberCommands, List.mem_cons, List.not_mem_nil, or_false] at hc
  rcases hc with rfl | rfl | rfl | rfl | rfl | rfl | rfl | rfl | rfl | rfl
  all_goals
    apply Exists.intro
    simp only [named, String.reduceBEq, Bool.false_eq_true, Bool.or_false, Bool.or_true,
      if_true, if_false, bind_pure_comp]
    rfl

/-- A turn reads its angle, then makes the rotation, which fails exactly for an infinite turn. -/
theorem named_turn (src : Source) {c : String} (hc : c ∈ turnCommands) (d : Delta) :
    ∃ rot : Float → Except Fault Transform,
      (∀ θ, (∃ t, rot θ = .ok t) ↔ θ.isInf = false) ∧
      named src d c = number src c >>= fun x =>
        (fun t => { d with transform := d.transform * t }) <$> liftM (rot (x * radiansPerDegree)) := by
  simp only [turnCommands, List.mem_cons, List.not_mem_nil, or_false] at hc
  rcases hc with rfl | rfl | rfl
  · refine ⟨Transform.rotationX, fun θ => ?_, by simp only [named, String.reduceBEq,
      Bool.false_eq_true, if_true, if_false, bind_pure_comp]⟩
    cases h : θ.isInf <;> simp [Transform.rotationX, Transform.turn, h, bind, Except.bind, pure,
      Except.pure]
  · refine ⟨Transform.rotationY, fun θ => ?_, by simp only [named, String.reduceBEq,
      Bool.false_eq_true, if_true, if_false, bind_pure_comp]⟩
    cases h : θ.isInf <;> simp [Transform.rotationY, Transform.turn, h, bind, Except.bind, pure,
      Except.pure]
  · refine ⟨Transform.rotationZ, fun θ => ?_, by simp only [named, String.reduceBEq,
      Bool.false_eq_true, if_true, if_false, bind_pure_comp]⟩
    cases h : θ.isInf <;> simp [Transform.rotationZ, Transform.turn, h, bind, Except.bind, pure,
      Except.pure]

/-- A command that takes nothing reads nothing. -/
theorem named_bare (src : Source) {c : String} (hc : c ∈ bareCommands) (d : Delta) :
    ∃ d', named src d c = pure d' := by
  simp only [bareCommands, List.mem_cons, List.not_mem_nil, or_false] at hc
  rcases hc with rfl | rfl | rfl | rfl | rfl
  all_goals
    apply Exists.intro
    simp only [named, String.reduceBEq, Bool.false_eq_true, Bool.or_false, Bool.or_true,
      if_true, if_false]
    rfl

/-- `s` reads one factor, or three when a number or a variable follows the first: the reader
commits to the second factor before it looks at it. -/
theorem phrase_of_scale {d d' : Delta} {ws : List OpWord} {c : Cursor}
    (h : (named src d "s").run ⟨ws, u⟩ = .ok (d', c)) :
    Phrase src.lookup (.name "s" :: ws) c.words := by
  simp only [named, String.reduceBEq, Bool.false_eq_true, Bool.or_false,
    if_true, if_false] at h
  obtain ⟨x, ⟨ws₁, u₁⟩, h₁, k₁⟩ := run_bind_eq_ok.1 h
  obtain ⟨w, rfl, hw⟩ := number_eq_ok h₁
  obtain ⟨o, c₂, h₂, k₂⟩ := run_bind_eq_ok.1 k₁
  rcases numberOpt_eq_ok h₂ with ⟨rfl, rfl, hnext⟩ | ⟨y, w₂, rfl, rfl, hw₂⟩
  · rw [run_pure_eq_ok k₂]
    exact .scaleOne hw hnext
  · obtain ⟨z, c₃, h₃, k₃⟩ := run_bind_eq_ok.1 k₂
    rw [run_pure_eq_ok k₃]
    obtain ⟨w₃, hws₂, hw₃⟩ := number_eq_ok h₃
    rw [hws₂]
    exact .scaleThree hw hw₂ hw₃

theorem phrase_of_matrix {d d' : Delta} {ws : List OpWord} {c : Cursor}
    (h : (named src d "m").run ⟨ws, u⟩ = .ok (d', c)) :
    Phrase src.lookup (.name "m" :: ws) c.words := by
  simp only [named, String.reduceBEq, Bool.false_eq_true, Bool.or_false,
    if_true, if_false] at h
  obtain ⟨xs, c₁, h₁, k₁⟩ := run_bind_eq_ok.1 h
  rw [run_pure_eq_ok k₁]
  obtain ⟨args, rfl, hlen, hargs⟩ := numbers_eq_ok "m" 9 h₁
  exact .matrix hlen hargs

theorem phrase_of_blend {d d' : Delta} {ws : List OpWord} {c : Cursor}
    (h : (named src d "blend").run ⟨ws, u⟩ = .ok (d', c)) :
    Phrase src.lookup (.name "blend" :: ws) c.words := by
  simp only [named, String.reduceBEq, Bool.false_eq_true, Bool.or_false,
    if_true, if_false] at h
  obtain ⟨t, c₁, h₁, k₁⟩ := run_bind_eq_ok.1 h
  obtain ⟨w, rfl, hw, -⟩ := colour_eq_ok h₁
  obtain ⟨k, c₂, h₂, k₂⟩ := run_bind_eq_ok.1 k₁
  obtain ⟨-, rfl⟩ := run_liftM_eq_ok h₂
  obtain ⟨x, c₃, h₃, k₃⟩ := run_bind_eq_ok.1 k₂
  rw [run_pure_eq_ok k₃]
  obtain ⟨w', hws₁, hw'⟩ := number_eq_ok h₃
  rw [hws₁]
  exact .blend hw hw'

/-- `color` reads a colour, or else takes the next word, which must be `random` or `#?`. -/
theorem phrase_of_color {d d' : Delta} {ws : List OpWord} {c : Cursor}
    (hws : ∀ w ∈ ws, w.wellFormed = true)
    (h : (named src d "color").run ⟨ws, u⟩ = .ok (d', c)) :
    Phrase src.lookup (.name "color" :: ws) c.words := by
  simp only [named, String.reduceBEq, Bool.false_eq_true, Bool.or_false,
    if_true, if_false] at h
  obtain ⟨o, c₁, h₁, k₁⟩ := run_bind_eq_ok.1 h
  rcases colourOpt_eq_ok h₁ with ⟨rfl, rfl, hnone⟩ | ⟨t, w, rfl, rfl, hw, -⟩
  · rcases ws with _ | ⟨w, ws⟩
    · cases k₁
    obtain ⟨hv, hh, -⟩ := hnone w rfl
    rw [StateT.run_bind, take_run_cons, except_ok_bind] at k₁
    dsimp only at k₁
    split at k₁
    · rename_i hshown
      have hs : w.shown = "random" ∨ w.shown = "#?" := by simpa using hshown
      have hname := OpWord.eq_name_of_shown (hws w (by simp)) hh
        (fun n hn => hv (.inl ⟨n, hn⟩)) (by rcases hs with hs | hs <;> simp [hs])
      rw [run_pure_eq_ok k₁, hname]
      exact .colorRandom hs
    · cases k₁
  · obtain ⟨p, c₂, h₂, k₂⟩ := run_bind_eq_ok.1 k₁
    obtain ⟨rfl, -⟩ := absolute_eq_ok h₂
    rw [run_pure_eq_ok k₂]
    exact .color hw

/-- **A command that reads is a phrase**, on well-formed words. -/
theorem phrase_of_named {d d' : Delta} {n : String} {ws : List OpWord} {c : Cursor}
    (hws : ∀ w ∈ ws, w.wellFormed = true) (h : (named src d n).run ⟨ws, u⟩ = .ok (d', c)) :
    Phrase src.lookup (.name n :: ws) c.words := by
  cases hcmd : isCommand n with
  | false => rw [named_of_not_command hcmd] at h; cases h
  | true =>
  rcases isCommand_iff.1 hcmd with hc | hc | hc | rfl | rfl | rfl | rfl
  · obtain ⟨g, hg⟩ := named_number src hc d
    rw [hg] at h
    obtain ⟨x, hx⟩ := run_map_eq_ok h
    obtain ⟨w, rfl, hw⟩ := number_eq_ok hx
    exact .number hc hw
  · obtain ⟨rot, hrot, hg⟩ := named_turn src hc d
    rw [hg] at h
    obtain ⟨x, c₁, h₁, k₁⟩ := run_bind_eq_ok.1 h
    obtain ⟨t, h₂⟩ := run_map_eq_ok k₁
    obtain ⟨hr, rfl⟩ := run_liftM_eq_ok h₂
    obtain ⟨w, rfl, hw⟩ := number_eq_ok h₁
    exact .turn hc hw ((hrot _).1 ⟨t, hr⟩)
  · obtain ⟨g, hg⟩ := named_bare src hc d
    rw [hg] at h
    rw [run_pure_eq_ok h]
    exact .bare hc
  · exact phrase_of_scale h
  · exact phrase_of_matrix h
  · exact phrase_of_blend h
  · exact phrase_of_color hws h

/-- `*` reads a colour and a number, or else takes the next word, which must be `h`, `s` or `b`,
and two numbers. -/
theorem phrase_of_star {d d' : Delta} {ws : List OpWord} {c : Cursor}
    (hws : ∀ w ∈ ws, w.wellFormed = true)
    (h : (command src d .star).run ⟨ws, u⟩ = .ok (d', c)) :
    Phrase src.lookup (.star :: ws) c.words := by
  simp only [command] at h
  obtain ⟨o, c₁, h₁, k₁⟩ := run_bind_eq_ok.1 h
  rcases colourOpt_eq_ok h₁ with ⟨rfl, rfl, hnone⟩ | ⟨t, w, rfl, rfl, hw, -⟩
  · rcases ws with _ | ⟨w, ws⟩
    · cases k₁
    obtain ⟨hv, hh, -⟩ := hnone w rfl
    rw [StateT.run_bind, take_run_cons, except_ok_bind] at k₁
    dsimp only at k₁
    split at k₁
    · rename_i hch
      have hs : w.shown = "h" ∨ w.shown = "s" ∨ w.shown = "b" := by simpa [or_assoc] using hch
      have hname := OpWord.eq_name_of_shown (hws w (by simp)) hh
        (fun n hn => hv (.inl ⟨n, hn⟩)) (by rcases hs with hs | hs | hs <;> simp [hs])
      obtain ⟨x, ⟨ws₁, u₁⟩, h₂, k₂⟩ := run_bind_eq_ok.1 k₁
      obtain ⟨w₁, rfl, hw₁⟩ := number_eq_ok h₂
      obtain ⟨y, c₃, h₃, k₃⟩ := run_bind_eq_ok.1 k₂
      rw [run_pure_eq_ok k₃]
      obtain ⟨w₂, hws₂, hw₂⟩ := number_eq_ok h₃
      rw [hws₂, hname]
      exact .starChannel hs hw₁ hw₂
    · cases k₁
  · obtain ⟨k, c₂, h₂, k₂⟩ := run_bind_eq_ok.1 k₁
    obtain ⟨-, rfl⟩ := run_liftM_eq_ok h₂
    obtain ⟨x, c₃, h₃, k₃⟩ := run_bind_eq_ok.1 k₂
    rw [run_pure_eq_ok k₃]
    obtain ⟨w', hws₁, hw'⟩ := number_eq_ok h₃
    rw [hws₁]
    exact .starColour hw hw'

/-- **A command that reads is a phrase**: on well-formed words, the words that reading a command
takes are its word and the arguments the grammar gives it. -/
theorem phrase_of_command {d d' : Delta} {w : OpWord} {ws : List OpWord} {c : Cursor}
    (hws : ∀ w ∈ ws, w.wellFormed = true) (h : (command src d w).run ⟨ws, u⟩ = .ok (d', c)) :
    Phrase src.lookup (w :: ws) c.words := by
  rcases w with n | t | t | _ | n
  · cases hcol : (!isCommand n && Colour.isNamed n) with
    | true =>
      simp only [command, hcol, if_true] at h
      obtain ⟨p, c₁, h₁, k₁⟩ := run_bind_eq_ok.1 h
      obtain ⟨rfl, -⟩ := absolute_eq_ok h₁
      rw [run_pure_eq_ok k₁]
      simp only [Bool.and_eq_true, Bool.not_eq_true'] at hcol
      exact .colourName hcol.1 hcol.2
    | false =>
      simp only [command, hcol, Bool.false_eq_true, if_false] at h
      exact phrase_of_named hws h
  · simp only [command] at h
    cases h
  · simp only [command] at h
    obtain ⟨p, c₁, h₁, k₁⟩ := run_bind_eq_ok.1 h
    obtain ⟨rfl, r, hr⟩ := absolute_eq_ok h₁
    rw [run_pure_eq_ok k₁]
    exact .hex hr
  · exact phrase_of_star hws h
  · simp only [command] at h
    cases h

theorem command_of_isCommand {n : String} (hc : isCommand n = true) (d : Delta) :
    command src d (.name n) = named src d n := by
  simp [command, hc]

/-- A command is no variable. -/
theorem not_isVariable_of_command {n : String} (hc : isCommand n = true) :
    ¬ IsVariable src.lookup (.name n) := by
  rintro (⟨m, hm⟩ | hb)
  · cases hm
  · simp [boundValue, hc] at hb

/-- Where a colour may stand, the reader leaves a command that is no colour name. -/
theorem colourOpt_of_command {n : String} (hc : isCommand n = true)
    (hn : Colour.isNamed n = false) (ws : List OpWord) :
    (colourOpt src).run ⟨.name n :: ws, u⟩ = .ok (none, ⟨.name n :: ws, u⟩) := by
  refine colourOpt_of_not (not_isVariable_of_command hc) (fun h hw => ?_) (fun n' hn' => ?_) ws
  · cases hw
  · cases hn'
    exact hn

/-- **A phrase reads**: from any delta, reading the command of a phrase takes exactly its words. -/
theorem command_of_phrase {w : OpWord} {ws rest : List OpWord}
    (hp : Phrase src.lookup (w :: ws) rest) (d : Delta) (u : Bool) :
    ∃ d' u', (command src d w).run ⟨ws, u⟩ = .ok (d', ⟨rest, u'⟩) := by
  cases hp with
  | number hc hw =>
    rw [command_of_isCommand (isCommand_iff.2 (.inl hc))]
    obtain ⟨g, hg⟩ := named_number src hc d
    obtain ⟨u', h⟩ := number_of_arg hw _ rest (u := u)
    exact ⟨_, u', by rw [hg]; exact run_map_of_ok h⟩
  | @turn c w x rest hc hw hx =>
    rw [command_of_isCommand (isCommand_iff.2 (.inr (.inl hc)))]
    obtain ⟨rot, hrot, hg⟩ := named_turn src hc d
    obtain ⟨u', h⟩ := number_of_arg hw c rest (u := u)
    obtain ⟨t, ht⟩ := (hrot _).2 hx
    exact ⟨_, u', by
      rw [hg, StateT.run_bind, h, except_ok_bind]
      exact run_map_of_ok (by rw [run_liftM, ht]; rfl)⟩
  | scaleOne hw hnext =>
    rw [command_of_isCommand (by decide)]
    simp only [named, String.reduceBEq, Bool.false_eq_true, Bool.or_false, if_true, if_false]
    obtain ⟨u₁, h₁⟩ := number_of_arg hw "s" rest (u := u)
    have h₂ : (numberOpt src).run ⟨rest, u₁⟩ = .ok (none, ⟨rest, u₁⟩) := by
      rcases rest with _ | ⟨w', rest⟩
      · rfl
      · obtain ⟨hn, hv⟩ := hnext w' rfl
        exact numberOpt_of_not hn hv rest
    exact ⟨_, u₁, by
      rw [StateT.run_bind, h₁, except_ok_bind, StateT.run_bind, h₂, except_ok_bind]
      rfl⟩
  | scaleThree h₁ h₂ h₃ =>
    rw [command_of_isCommand (by decide)]
    simp only [named, String.reduceBEq, Bool.false_eq_true, Bool.or_false, if_true, if_false]
    obtain ⟨u₁, k₁⟩ := number_of_arg h₁ "s" _ (u := u)
    obtain ⟨u₂, k₂⟩ := numberOpt_of_arg h₂ _ (u := u₁)
    obtain ⟨u₃, k₃⟩ := number_of_arg h₃ "s" rest (u := u₂)
    exact ⟨_, u₃, by
      rw [StateT.run_bind, k₁, except_ok_bind, StateT.run_bind, k₂, except_ok_bind]
      dsimp only
      rw [StateT.run_bind, k₃, except_ok_bind]
      rfl⟩
  | matrix hlen hargs =>
    rw [command_of_isCommand (by decide)]
    simp only [named, String.reduceBEq, Bool.false_eq_true, Bool.or_false, if_true, if_false]
    obtain ⟨xs, u', h⟩ := numbers_of_args "m" _ rest u hargs
    rw [hlen] at h
    exact ⟨_, u', by rw [StateT.run_bind, h, except_ok_bind]; rfl⟩
  | bare hc =>
    rw [command_of_isCommand (isCommand_iff.2 (.inr (.inr (.inl hc))))]
    obtain ⟨d', hg⟩ := named_bare src hc d
    exact ⟨d', u, by rw [hg]; rfl⟩
  | @colourName n rest hc hn =>
    obtain ⟨v, hv⟩ := Option.isSome_iff_exists.1 hn
    obtain ⟨k, hk⟩ := (src.recolour_ok_iff Hsba.black n).2
      ⟨v, by simp [Colour.resolve, hv]⟩
    exact ⟨_, u, by
      simp only [command, hc, hn, Bool.not_false, Bool.and_self, if_true]
      rw [StateT.run_bind, absolute_run, hk]
      rfl⟩
  | @hex h r rest hr =>
    obtain ⟨k, hk⟩ := (src.recolour_ok_iff Hsba.black h).2 ⟨r, hr⟩
    exact ⟨_, u, by
      simp only [command]
      rw [StateT.run_bind, absolute_run, hk]
      rfl⟩
  | color hw =>
    rw [command_of_isCommand (by decide)]
    simp only [named, String.reduceBEq, Bool.false_eq_true, Bool.or_false, if_true, if_false]
    obtain ⟨s, t, u', h, hr⟩ := colourOpt_of_arg hw rest (u := u)
    obtain ⟨k, hk⟩ := src.recolour_of_resolve hr Hsba.black
    exact ⟨_, u', by
      rw [StateT.run_bind, h, except_ok_bind]
      simp only [StateT.run_bind, absolute_run, hk]
      rfl⟩
  | @colorRandom c rest hc =>
    have hcmd : isCommand c = true := by rcases hc with rfl | rfl <;> decide
    have hn : Colour.isNamed c = false := by rcases hc with rfl | rfl <;> decide
    have hs : ((OpWord.name c).shown == "random" || (OpWord.name c).shown == "#?") = true := by
      rcases hc with rfl | rfl <;> decide
    rw [command_of_isCommand (by decide)]
    simp only [named, String.reduceBEq, Bool.false_eq_true, Bool.or_false, if_true, if_false]
    -- the colour reader leaves the word, a command that is no colour name, and `take` hands it on
    exact ⟨_, u || false, by
      rw [StateT.run_bind, colourOpt_of_command hcmd hn, except_ok_bind]
      dsimp only
      rw [StateT.run_bind, take_run_cons, except_ok_bind]
      dsimp only
      rw [if_pos hs]
      rfl⟩
  | blend hw hw' =>
    rw [command_of_isCommand (by decide)]
    simp only [named, String.reduceBEq, Bool.false_eq_true, Bool.or_false, if_true, if_false]
    obtain ⟨s, t, u₁, h₁, hr⟩ := colour_of_arg hw "blend" _ (u := u)
    obtain ⟨k, hk⟩ := src.recolour_of_resolve hr d.target
    obtain ⟨u₂, h₂⟩ := number_of_arg hw' "blend" rest (u := u₁)
    exact ⟨_, u₂, by
      rw [StateT.run_bind, h₁, except_ok_bind, StateT.run_bind, run_liftM, hk]
      simp only [Except.map, except_ok_bind, StateT.run_bind, h₂]
      rfl⟩
  | starColour hw hw' =>
    simp only [command]
    obtain ⟨s, t, u₁, h₁, hr⟩ := colourOpt_of_arg hw _ (u := u)
    obtain ⟨k, hk⟩ := src.recolour_of_resolve hr d.target
    obtain ⟨u₂, h₂⟩ := number_of_arg hw' "*" rest (u := u₁)
    exact ⟨_, u₂, by
      rw [StateT.run_bind, h₁, except_ok_bind]
      dsimp only
      rw [StateT.run_bind, run_liftM, hk]
      simp only [Except.map, except_ok_bind, StateT.run_bind, h₂]
      rfl⟩
  | @starChannel ch w₁ w₂ x₁ x₂ rest hch h₁ h₂ =>
    have hcmd : isCommand ch = true := by rcases hch with rfl | rfl | rfl <;> decide
    have hn : Colour.isNamed ch = false := by rcases hch with rfl | rfl | rfl <;> decide
    have hs : ((OpWord.name ch).shown == "h" || (OpWord.name ch).shown == "s" ||
        (OpWord.name ch).shown == "b") = true := by
      rcases hch with rfl | rfl | rfl <;> decide
    simp only [command]
    -- as for `color random`: `h`, `s` and `b` are commands, so no colour is read first
    obtain ⟨u₁, k₁⟩ := number_of_arg h₁ ("*" ++ (OpWord.name ch).shown) (w₂ :: rest)
      (u := u || false)
    obtain ⟨u₂, k₂⟩ := number_of_arg h₂ ("*" ++ (OpWord.name ch).shown) rest (u := u₁)
    exact ⟨_, u₂, by
      rw [StateT.run_bind, colourOpt_of_command hcmd hn, except_ok_bind]
      dsimp only
      rw [StateT.run_bind, take_run_cons, except_ok_bind]
      dsimp only
      rw [if_pos hs, StateT.run_bind, k₁, except_ok_bind, StateT.run_bind, k₂, except_ok_bind]
      rfl⟩

end Commands

/-! ## Operator texts -/

section Texts

variable {src : Source}

/-- Given fuel for every word, the loop reads the words of a sequence of phrases. -/
theorem commandsFrom_ok_of_accepts (src : Source) {ws : List OpWord} (h : Accepts src.lookup ws) :
    ∀ (fuel : Nat) (d : Delta) (u : Bool), ws.length ≤ fuel →
      ∃ r, (commandsFrom src fuel d).run ⟨ws, u⟩ = .ok r := by
  induction h with
  | nil => exact fun fuel d u _ => ⟨_, commandsFrom_run_nil fuel d u⟩
  | @cons ws rest hp hrest ih =>
    intro fuel d u hfuel
    rcases ws with _ | ⟨w, ws⟩
    · cases hp
    obtain ⟨fuel, rfl⟩ : ∃ f, fuel = f + 1 := ⟨fuel - 1, by simp at hfuel; omega⟩
    obtain ⟨d', u', hc⟩ := command_of_phrase hp d (u || false)
    have hlen := (command_suffix hc).length_le
    obtain ⟨r, hr⟩ := ih fuel d' u' (by simp at hfuel hlen; omega)
    exact ⟨r, by rw [commandsFrom_run_cons, hc, except_ok_bind]; exact hr⟩

/-- Well-formed words that the loop reads are a sequence of phrases: each turn reads one. -/
theorem accepts_of_commandsFrom_ok :
    ∀ (fuel : Nat) (d : Delta) (ws : List OpWord) (u : Bool) (r : Delta × Cursor),
      (∀ w ∈ ws, w.wellFormed = true) → ws.length ≤ fuel →
        (commandsFrom src fuel d).run ⟨ws, u⟩ = .ok r → Accepts src.lookup ws := by
  intro fuel
  induction fuel with
  | zero =>
    intro d ws u r _ hfuel _
    rw [List.length_eq_zero_iff.1 (Nat.le_zero.1 hfuel)]
    exact .nil
  | succ fuel ih =>
    intro d ws u r hws hfuel h
    rcases ws with _ | ⟨w, ws⟩
    · exact .nil
    rw [commandsFrom_run_cons] at h
    cases hc : (command src d w).run ⟨ws, u || false⟩ with
    | error f => rw [hc] at h; cases h
    | ok p =>
      rw [hc, except_ok_bind] at h
      obtain ⟨d', ⟨ws', u'⟩⟩ := p
      have hsuf := command_suffix hc
      have hp := phrase_of_command (fun w' hw' => hws w' (List.mem_cons_of_mem _ hw')) hc
      have hws' : ∀ w' ∈ ws', w'.wellFormed = true :=
        fun w' hw' => hws w' (List.mem_cons_of_mem _ (hsuf.subset hw'))
      have hlen := hsuf.length_le
      simp only [List.length_cons] at hfuel hlen
      exact .cons hp (ih d' ws' u' r hws' (by omega) h)

/-- A text that reads splits into words that are phrases one after another. -/
theorem accepts_of_read_ok {text : String} {lookup : String → Option String} {pool : Pool}
    {d : Delta} (h : read text lookup pool = .ok d) :
    ∃ ws, OpWord.split text = .ok ws ∧ Accepts lookup ws := by
  unfold read at h
  cases hs : OpWord.split text with
  | error f =>
    rw [hs, except_error_bind] at h
    cases h
  | ok ws =>
    rw [hs, except_ok_bind] at h
    refine ⟨ws, rfl, ?_⟩
    cases hc : (commandsFrom ⟨text, lookup, pool⟩ ws.length neutral).run ⟨ws, false⟩ with
    | error f => rw [hc] at h; cases h
    | ok r =>
      exact accepts_of_commandsFrom_ok ws.length neutral ws false r
        (OpWord.splitFrom_wellFormed text text.toList ws hs) (Nat.le_refl _) hc

/-- A text whose words are phrases one after another reads. -/
theorem read_ok_of_accepts {text : String} {lookup : String → Option String} (pool : Pool)
    {ws : List OpWord} (hs : OpWord.split text = .ok ws) (hacc : Accepts lookup ws) :
    ∃ d, read text lookup pool = .ok d := by
  obtain ⟨r, hr⟩ := commandsFrom_ok_of_accepts ⟨text, lookup, pool⟩ hacc ws.length
    neutral false (Nat.le_refl _)
  unfold read
  rw [hs, except_ok_bind, hr]
  exact ⟨_, rfl⟩

/-- **An operator text reads exactly when its words are phrases one after another**: it splits
into words, and these are commands, each followed by the arguments the grammar gives it. -/
theorem read_ok_iff_accepts (text : String) (lookup : String → Option String) (pool : Pool) :
    (∃ d, read text lookup pool = .ok d) ↔ ∃ ws, OpWord.split text = .ok ws ∧ Accepts lookup ws := by
  constructor
  · rintro ⟨d, hd⟩
    exact accepts_of_read_ok hd
  · rintro ⟨ws, hs, hacc⟩
    exact read_ok_of_accepts pool hs hacc

/-- `blend red 1` is refused under a variable `red` bound to `3`, though `red` names a colour:
where a colour may stand, a bare name bound as a variable is read as the variable. -/
theorem blend_reads_bound_colour_name_as_variable :
    Colour.isNamed "red" = true ∧
      ¬ ∃ d, read "blend red 1" (fun n => if n = "red" then some "3" else none) Pool.blank = .ok d := by
  refine ⟨by decide, ?_⟩
  rintro ⟨d, hd⟩
  obtain ⟨ws, hs, hacc⟩ := accepts_of_read_ok hd
  have hsplit : OpWord.split "blend red 1" = .ok [.name "blend", .name "red", .number "1"] :=
    Except.eq_ok_of_toOption (by decide +kernel)
  have hbad : (Colour.resolve "3").toOption = none := by decide +kernel
  rw [hsplit] at hs
  cases hs
  cases hacc with
  | cons hp _ =>
    -- the one phrase that starts with `blend` needs a colour next
    obtain ⟨l, hl, hp⟩ : ∃ l, l = [OpWord.name "blend", .name "red", .number "1"] ∧
        Phrase _ l _ := ⟨_, rfl, hp⟩
    cases hp with
    | blend hw _ =>
      simp only [List.cons.injEq] at hl
      obtain ⟨-, rfl, -⟩ := hl
      cases hw with
      | bound hv hr =>
        simp [boundValue, isCommand, commands] at hv
        subst hv
        rw [hr] at hbad
        cases hbad
      | named hv _ => simp [boundValue, isCommand, commands] at hv
    | _ => simp_all [numberCommands, turnCommands, bareCommands, isCommand, commands]

end Texts

end Delta

end ShapeGrammar
