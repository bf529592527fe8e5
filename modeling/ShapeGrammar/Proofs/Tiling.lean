import ShapeGrammar.Script.Token
/-!
# The tokens of a script tile it

Reading a script whose comments are blanked out, `Script.scan` lays the text out as blanks, a
token's text, blanks, the next token's text, and so on, and then either nothing but blanks, or
blanks and the place where it had to stop (`Script.Tiles`). Every token's text is the text at its
position and is never empty, so the positions increase strictly and the reading cannot take a
character twice or leave one out.

Each token is the one `Script.matchAt` finds at its position, after the character before it and
inside the groups the tokens before it leave open (`Script.openGroups`, which never goes below
zero). So a weight is read exactly where a weight fits and more groups are open than closed. The
reading stops at the first place that is not blank where `matchAt` finds a problem; such a place is
`Script.Stuck`: no kind of token fits there and the problem is the word that stands there, or a
`set`/`@` or `rule`/`#` starts there and no whole setting or rule head does
(`Script.matchAt_eq_problem_iff`).

That every kind of token takes at least one character and no more than there are
(`Script.matchAt_eq_token`) is what makes the reading end without skipping anything: the step of
at least one character that `scanFrom` takes for its termination is always the token's own length.
-/

namespace ShapeGrammar

namespace Script

open Text

/-! ## Every kind of token takes at least one character -/

/-- `m` reads a token of `cs` whose lexeme is of the kind `kind`: at least one character, and
no more than `cs` has. -/
def TokenOf (kind : Lexeme → Prop) (cs : List Char) (m : Match) : Prop :=
  ∃ l n, m = .token l n ∧ kind l ∧ 0 < n ∧ n ≤ cs.length

/-- The lexeme is a group's weight. -/
def Lexeme.IsWeight (l : Lexeme) : Prop := ∃ v, l = .weight v

theorem add_le_length_of_le_drop {cs : List Char} {k n : Nat} (h0 : 0 < n)
    (h : n ≤ (cs.drop k).length) : k + n ≤ cs.length := by
  rw [List.length_drop] at h
  omega

theorem lt_length_of_head_drop {cs : List Char} {k : Nat} {c : Char}
    (h : (cs.drop k).head? = some c) : k < cs.length := by
  rcases Nat.lt_or_ge k cs.length with hk | hk
  · exact hk
  · rw [List.drop_eq_nil_of_le hk] at h
    cases h

/-- A decimal number at the front takes at least one character. -/
theorem decimalLength_eq_some {cs : List Char} {n : Nat} (h : decimalLength cs = some n) :
    0 < n ∧ n ≤ cs.length := by
  have hwhole := span_le_length isDigit cs
  have hdrop := List.length_drop (l := cs) (i := span isDigit cs)
  unfold decimalLength at h
  dsimp only at h
  split at h
  · rename_i rest hcs
    rw [hcs] at hdrop
    have := span_le_length isDigit rest
    simp only [List.length_cons] at hdrop
    split at h
    · cases h
      omega
    · split at h <;> cases h
      omega
  · split at h <;> cases h
    omega

/-- A setting's value takes at least one character. -/
theorem settingValueLength_eq_some {cs : List Char} {v : Nat} (h : settingValueLength cs = some v) :
    0 < v ∧ v ≤ cs.length := by
  unfold settingValueLength at h
  split at h
  · -- a bracketed list ends at its closing bracket
    rename_i rest
    dsimp only at h
    split at h
    · rename_i hclose
      cases h
      have := lt_length_of_head_drop (beq_iff_eq.1 hclose)
      simp only [List.length_cons]
      omega
    · cases h
  · rename_i rest
    have := span_le_length isHexDigit rest
    dsimp only at h
    split at h <;> cases h
    simp only [List.length_cons]
    omega
  · rename_i rest
    have := span_le_length (fun c => isDigit c || c == '.') rest
    dsimp only at h
    split at h <;> cases h
    simp only [List.length_cons]
    omega
  · rename_i c rest _ _ _
    split at h
    · cases h
      have := span_le_length (fun d => isWordChar d || ":,.#-".contains d) rest
      simp only [List.length_cons]
      omega
    · split at h <;> cases h
      have := span_le_length (fun d => isDigit d || d == '.') rest
      simp only [List.length_cons]
      omega
  · cases h

/-- A braced text takes its two braces and what stands between them. -/
theorem bracedLength_eq_some {cs : List Char} {n : Nat} (h : bracedLength cs = some n) :
    2 ≤ n ∧ n ≤ cs.length := by
  unfold bracedLength at h
  split at h
  · rename_i rest
    dsimp only at h
    split at h
    · rename_i hclose
      cases h
      have := lt_length_of_head_drop (beq_iff_eq.1 hclose)
      simp only [List.length_cons]
      omega
    · cases h
  · cases h

/-- A weight is read as a weight, of at least one character. -/
theorem weightAt_eq_some {prev : Option Char} {cs : List Char} {m : Match}
    (h : weightAt prev cs = some m) : TokenOf Lexeme.IsWeight cs m := by
  unfold weightAt at h
  obtain ⟨hd, -, h⟩ := List.exists_of_findSome?_eq_some h
  dsimp only at h
  obtain ⟨n, hn, h⟩ := Option.bind_eq_some_iff.1 h
  obtain ⟨hpos, hle⟩ := decimalLength_eq_some hn
  have hend := add_le_length_of_le_drop hpos hle
  -- the number ends at a character that is no word character or point, or at the end
  split at h
  · split at h
    · cases h
    · cases h
      exact ⟨_, _, rfl, ⟨_, rfl⟩, by omega, hend⟩
  · cases h
    exact ⟨_, _, rfl, ⟨_, rfl⟩, by omega, hend⟩

theorem defineAt_eq_some {cs : List Char} {m : Match} (h : defineAt cs = some m) :
    TokenOf (fun l => ¬ l.IsWeight) cs m := by
  unfold defineAt at h
  obtain ⟨hd, -, h⟩ := Option.bind_eq_some_iff.1 h
  obtain ⟨n, -, h⟩ := firstDown_eq_some h
  split at h
  · cases h
  obtain ⟨s, -, h⟩ := firstDown_eq_some h
  dsimp only at h
  split at h
  · cases h
  · rename_i hv
    cases h
    have hpos := Nat.pos_of_ne_zero (by simpa using hv)
    exact ⟨_, _, rfl, by simp [Lexeme.IsWeight], by omega,
      add_le_length_of_le_drop hpos (span_le_length _ _)⟩

theorem settingAt_eq_some {prev : Option Char} {cs : List Char} {m : Match}
    (h : settingAt prev cs = some m) : TokenOf (fun l => ¬ l.IsWeight) cs m := by
  unfold settingAt at h
  obtain ⟨hd, -, h⟩ := Option.bind_eq_some_iff.1 h
  obtain ⟨k, -, h⟩ := firstDown_eq_some h
  dsimp only at h
  obtain ⟨v, hv, rfl⟩ := Option.map_eq_some_iff.1 h
  obtain ⟨hpos, hle⟩ := settingValueLength_eq_some hv
  exact ⟨_, _, rfl, by simp [Lexeme.IsWeight], by omega, add_le_length_of_le_drop hpos hle⟩

theorem ruleAt_eq_some {prev : Option Char} {cs : List Char} {m : Match}
    (h : ruleAt prev cs = some m) : TokenOf (fun l => ¬ l.IsWeight) cs m := by
  unfold ruleAt at h
  obtain ⟨hd, -, h⟩ := Option.bind_eq_some_iff.1 h
  dsimp only at h
  split at h
  · rename_i hopen
    cases h
    -- the head ends at an opening brace, which is there
    have := lt_length_of_head_drop (beq_iff_eq.1 (Bool.and_eq_true _ _ ▸ hopen).2)
    exact ⟨_, _, rfl, by simp [Lexeme.IsWeight], by omega, by omega⟩
  · cases h

theorem transformAt_eq_some {cs : List Char} {m : Match} (h : transformAt cs = some m) :
    TokenOf (fun l => ¬ l.IsWeight) cs m := by
  unfold transformAt at h
  dsimp only at h
  split at h
  · obtain ⟨n, hn, rfl⟩ := Option.map_eq_some_iff.1 h
    obtain ⟨h2, hle⟩ := bracedLength_eq_some hn
    exact ⟨_, _, rfl, by simp [Lexeme.IsWeight], by omega, add_le_length_of_le_drop (by omega) hle⟩
  · obtain ⟨n, hn, rfl⟩ := Option.map_eq_some_iff.1 h
    obtain ⟨h2, hle⟩ := bracedLength_eq_some hn
    exact ⟨_, _, rfl, by simp [Lexeme.IsWeight], by omega, hle⟩

theorem length_of_drop_eq_cons {cs rest : List Char} {k : Nat} {c : Char}
    (h : cs.drop k = c :: rest) : k + 1 + rest.length = cs.length := by
  have hlen := List.length_drop (l := cs) (i := k)
  rw [h, List.length_cons] at hlen
  omega

theorem referenceAt_eq_some {cs : List Char} {m : Match} (h : referenceAt cs = some m) :
    TokenOf (fun l => ¬ l.IsWeight) cs m := by
  unfold referenceAt at h
  dsimp only at h
  split at h
  · cases h
  · rename_i hname
    cases h
    have hpos : 0 < nameLength cs := Nat.pos_of_ne_zero (by simpa using hname)
    have hle := nameLength_le cs
    refine ⟨_, _, rfl, by simp [Lexeme.IsWeight], ?_, ?_⟩
    · refine Nat.lt_of_lt_of_le hpos (Nat.le_trans ?_ (Nat.le_add_right _ _))
      split <;> split <;> omega
    -- the name, then `:option` when option characters follow a colon
    generalize hafter : (if _ > 0 then nameLength cs + 1 + _ else nameLength cs) = after
    have hafter_le : after ≤ cs.length := by
      rw [← hafter]
      split
      · rename_i rest hcolon
        have := length_of_drop_eq_cons hcolon
        have := span_le_length (fun c => isWordChar c || ".:-".contains c) rest
        split <;> omega
      · split <;> omega
    -- then `[param]` when a closing bracket follows the opening one
    split
    · rename_i rest hopen
      have := length_of_drop_eq_cons hopen
      split
      · rename_i hclose
        have := lt_length_of_head_drop (beq_iff_eq.1 hclose)
        simp only [Option.map_some, Option.getD_some]
        omega
      · simp only [Option.map_none, Option.getD_none]
        omega
    · simp only [Option.map_none, Option.getD_none]
      omega

/-! ## What the reader finds at one place -/

/-- What the first alternative that fits gives has every property that each alternative's
result has. -/
theorem forall_eq_some_or {α : Type} {P : α → Prop} {o o' : Option α}
    (h : ∀ x, o = some x → P x) (h' : ∀ x, o' = some x → P x) : ∀ x, o.or o' = some x → P x := by
  intro x hx
  rcases Option.or_eq_some_iff.1 hx with hx | ⟨-, hx⟩
  · exact h x hx
  · exact h' x hx

/-- A token of `m`, if it is one, is no weight and takes one to `cs.length` characters. -/
def PlainToken (cs : List Char) (m : Match) : Prop :=
  ∀ l n, m = .token l n → ¬ l.IsWeight ∧ 0 < n ∧ n ≤ cs.length

theorem TokenOf.plainToken {cs : List Char} {m : Match} (h : TokenOf (fun l => ¬ l.IsWeight) cs m) :
    PlainToken cs m := by
  obtain ⟨l, n, rfl, hl, hpos, hle⟩ := h
  intro l' n' h'
  cases h'
  exact ⟨hl, hpos, hle⟩

theorem plainToken_problem {cs : List Char} {o : Option Nat} {p : SyntaxProblem} :
    ∀ m, o.map (fun _ => Match.problem p) = some m → PlainToken cs m := by
  intro m hm l n h
  obtain ⟨_, -, rfl⟩ := Option.map_eq_some_iff.1 hm
  cases h

/-- **Every token takes at least one character**, and no more than there are; it is a weight
exactly when the reader is inside a group and a weight fits there, as the weight is tried
first. -/
theorem matchAt_eq_token {prev : Option Char} {inGroup : Bool} {cs : List Char} {l : Lexeme}
    {n : Nat} (h : matchAt prev inGroup cs = .token l n) :
    0 < n ∧ n ≤ cs.length ∧ (l.IsWeight ↔ inGroup = true ∧ (weightAt prev cs).isSome) := by
  by_cases hw : inGroup = true ∧ (weightAt prev cs).isSome
  · obtain ⟨hg, hsome⟩ := hw
    obtain ⟨m, hm⟩ := Option.isSome_iff_exists.1 hsome
    simp only [matchAt, hg, hm, if_true, Option.orElse_eq_or, Option.some_or] at h
    obtain ⟨l', n', rfl, hl', hpos, hle⟩ := weightAt_eq_some hm
    cases h
    exact ⟨hpos, hle, iff_of_true hl' ⟨hg, hsome⟩⟩
  · have hnone : (if inGroup then weightAt prev cs else none) = none := by
      cases inGroup <;> simp_all
    simp only [matchAt, hnone, Option.orElse_eq_or, Option.none_or] at h
    suffices hl : ¬ l.IsWeight ∧ 0 < n ∧ n ≤ cs.length from
      ⟨hl.2.1, hl.2.2, iff_of_false hl.1 hw⟩
    split at h
    · -- the first other alternative that fits reads a token other than a weight
      rename_i m hm
      exact forall_eq_some_or (forall_eq_some_or (forall_eq_some_or (forall_eq_some_or
        (forall_eq_some_or (forall_eq_some_or
          (fun m hm => (defineAt_eq_some hm).plainToken)
          (fun m hm => (settingAt_eq_some hm).plainToken)) plainToken_problem)
          (fun m hm => (ruleAt_eq_some hm).plainToken)) plainToken_problem)
          (fun m hm => (transformAt_eq_some hm).plainToken))
          (fun m hm => (referenceAt_eq_some hm).plainToken) m hm l n h
    · -- a bracket is one character
      split at h <;> cases h <;> exact ⟨by simp [Lexeme.IsWeight], Nat.one_pos, by simp⟩

/-- Why the reader stops at the front of `cs`, after the character `prev` and inside a group or
not: a `set` or `@` starts there and no whole setting does, a `rule` or `#` starts there and no
whole rule head does, or no kind of token fits and the problem is the word that stands there.
Every kind tried before has found nothing. -/
inductive Stuck (prev : Option Char) (inGroup : Bool) (cs : List Char) : SyntaxProblem → Prop
  | malformedSetting (hw : inGroup = true → weightAt prev cs = none) (hd : defineAt cs = none)
      (hs : settingAt prev cs = none) (hhead : (settingHead prev cs).isSome) :
      Stuck prev inGroup cs .malformedSetting
  | malformedRule (hw : inGroup = true → weightAt prev cs = none) (hd : defineAt cs = none)
      (hs : settingHead prev cs = none) (hr : ruleAt prev cs = none)
      (hhead : (ruleHead prev cs).isSome) :
      Stuck prev inGroup cs .malformedRule
  | noToken (hw : inGroup = true → weightAt prev cs = none) (hd : defineAt cs = none)
      (hs : settingHead prev cs = none) (hr : ruleHead prev cs = none)
      (ht : transformAt cs = none) (href : referenceAt cs = none)
      (hbracket : ∀ c ∈ cs.head?, c ≠ '(' ∧ c ≠ '|' ∧ c ≠ ')' ∧ c ≠ '}') :
      Stuck prev inGroup cs (.noToken (String.ofList (cs.takeWhile fun c => !isBlank c)))

theorem TokenOf.ne_problem {kind : Lexeme → Prop} {cs : List Char} {p : SyntaxProblem}
    (h : TokenOf kind cs (.problem p)) : False := by
  obtain ⟨_, _, h, -⟩ := h
  cases h

theorem weightFirst_eq_none {prev : Option Char} {inGroup : Bool} {cs : List Char}
    (hw : inGroup = true → weightAt prev cs = none) :
    (if inGroup then weightAt prev cs else none) = none := by
  cases inGroup
  · rfl
  · exact hw rfl

/-- **The reader finds a problem exactly where it is stuck.** -/
theorem matchAt_eq_problem_iff {prev : Option Char} {inGroup : Bool} {cs : List Char}
    {p : SyntaxProblem} : matchAt prev inGroup cs = .problem p ↔ Stuck prev inGroup cs p := by
  constructor
  · intro h
    -- a weight that fits would have been read
    have hw : inGroup = true → weightAt prev cs = none := by
      intro hg
      cases hm : weightAt prev cs with
      | none => rfl
      | some m =>
        obtain ⟨l, n, rfl, -⟩ := weightAt_eq_some hm
        simp [matchAt, hg, hm] at h
    simp only [matchAt, weightFirst_eq_none hw, Option.orElse_eq_or, Option.none_or] at h
    split at h
    · -- the problem is the first alternative that fits: a setting's or a rule's head, as the
      -- others read tokens
      rename_i m hm
      subst h
      have hm := (Option.or_eq_some_iff.1 hm).resolve_right
        fun ⟨_, href⟩ => (referenceAt_eq_some href).ne_problem
      have hm := (Option.or_eq_some_iff.1 hm).resolve_right
        fun ⟨_, ht⟩ => (transformAt_eq_some ht).ne_problem
      rcases Option.or_eq_some_iff.1 hm with hm | ⟨hnone, hrh⟩
      · have hm := (Option.or_eq_some_iff.1 hm).resolve_right
          fun ⟨_, hr⟩ => (ruleAt_eq_some hr).ne_problem
        rcases Option.or_eq_some_iff.1 hm with hm | ⟨hnone, hsh⟩
        · have hm := (Option.or_eq_some_iff.1 hm).resolve_right
            fun ⟨_, hs⟩ => (settingAt_eq_some hs).ne_problem
          exact (defineAt_eq_some hm).ne_problem.elim
        · obtain ⟨k, hk, hp⟩ := Option.map_eq_some_iff.1 hsh
          cases hp
          simp only [Option.or_eq_none_iff] at hnone
          exact .malformedSetting hw hnone.1 hnone.2 (by simp [hk])
      · obtain ⟨k, hk, hp⟩ := Option.map_eq_some_iff.1 hrh
        cases hp
        simp only [Option.or_eq_none_iff, Option.map_eq_none_iff] at hnone
        exact .malformedRule hw hnone.1.1.1 hnone.1.2 hnone.2 (by simp [hk])
    · -- no alternative fits, and no bracket stands there
      rename_i hnone
      simp only [Option.or_eq_none_iff, Option.map_eq_none_iff] at hnone
      obtain ⟨⟨⟨⟨⟨⟨hd, -⟩, hs⟩, -⟩, hr⟩, ht⟩, href⟩ := hnone
      split at h
      · cases h
      · cases h
      · cases h
      · cases h
      · rename_i hopen hbar hclose hend
        cases h
        refine .noToken hw hd hs hr ht href fun c hc => ?_
        obtain ⟨tail, rfl⟩ := List.head?_eq_some_iff.1 hc
        exact ⟨fun e => hopen tail (by rw [e]), fun e => hbar tail (by rw [e]),
          fun e => hclose tail (by rw [e]), fun e => hend tail (by rw [e])⟩
  · intro h
    cases h with
    | malformedSetting hw hd hs hhead =>
      obtain ⟨k, hk⟩ := Option.isSome_iff_exists.1 hhead
      simp only [matchAt, weightFirst_eq_none hw, hd, hs, hk, Option.orElse_eq_or, Option.none_or,
        Option.map_some, Option.some_or]
    | malformedRule hw hd hs hr hhead =>
      obtain ⟨k, hk⟩ := Option.isSome_iff_exists.1 hhead
      have hs' : settingAt prev cs = none := by simp [settingAt, hs]
      simp only [matchAt, weightFirst_eq_none hw, hd, hs, hs', hr, hk, Option.orElse_eq_or, Option.none_or,
        Option.map_none, Option.map_some, Option.some_or]
    | noToken hw hd hs hr ht href hbracket =>
      have hs' : settingAt prev cs = none := by simp [settingAt, hs]
      have hr' : ruleAt prev cs = none := by simp [ruleAt, hr]
      simp only [matchAt, weightFirst_eq_none hw, hd, hs, hs', hr, hr', ht, href, Option.orElse_eq_or,
        Option.none_or, Option.map_none]
      -- the text starts with no bracket
      split
      · exact absurd rfl (hbracket '(' (by simp)).1
      · exact absurd rfl (hbracket '|' (by simp)).2.1
      · exact absurd rfl (hbracket ')' (by simp)).2.2.1
      · exact absurd rfl (hbracket '}' (by simp)).2.2.2
      · rfl

/-! ## A whole reading tiles the text -/

/-- The groups left open after the tokens `ts`, from `depth` open ones: an opening bracket opens
one, a closing one closes one, and a closing one when none is open leaves none open. -/
def openGroups (depth : Nat) (ts : List Token) : Nat :=
  ts.foldl (fun d t => t.lexeme.depthAfter d) depth

@[simp] theorem openGroups_nil (depth : Nat) : openGroups depth [] = depth := rfl

@[simp] theorem openGroups_cons (depth : Nat) (t : Token) (ts : List Token) :
    openGroups depth (t :: ts) = openGroups (t.lexeme.depthAfter depth) ts := rfl

/-- `Tiles pos cs ts rest`: the text `cs`, which starts at offset `pos`, is blanks, the text of
the first token of `ts`, blanks, the text of the next, and so on, then blanks and `rest`, which is
empty or starts with no blank. Each token stands at the offset where its text starts, and its
text is not empty and starts with no blank. -/
inductive Tiles : Nat → List Char → List Token → List Char → Prop
  | last {pos : Nat} {w rest cs : List Char} (hw : ∀ c ∈ w, isBlank c = true)
      (hrest : ∀ c ∈ rest.head?, isBlank c = false) (hcs : cs = w ++ rest) : Tiles pos cs [] rest
  | token {pos : Nat} {w more cs rest : List Char} {t : Token} {ts : List Token}
      (hw : ∀ c ∈ w, isBlank c = true) (hpos : t.position = pos + w.length)
      (hfirst : ∃ c, t.text.toList.head? = some c ∧ isBlank c = false)
      (hmore : Tiles (t.position + t.text.length) more ts rest)
      (hcs : cs = w ++ t.text.toList ++ more) :
      Tiles pos cs (t :: ts) rest

/-- A blank in front of a tiling joins its first gap. -/
theorem Tiles.cons_blank {pos : Nat} {c : Char} {cs rest : List Char} {ts : List Token}
    (hc : isBlank c = true) (h : Tiles (pos + 1) cs ts rest) : Tiles pos (c :: cs) ts rest := by
  cases h with
  | @last _ w _ _ hw hrest hcs =>
    refine .last (w := c :: w) ?_ hrest (by rw [hcs, List.cons_append])
    simpa [hc] using hw
  | @token _ w _ _ _ _ _ hw hpos hfirst hmore hcs =>
    refine .token (w := c :: w) ?_ (by rw [hpos, List.length_cons]; omega) hfirst hmore
      (by rw [hcs]; rfl)
    simpa [hc] using hw

/-- What a reading of `cs`, after the text `pre` and inside `depth` groups, has to be: its tokens
and the rest where it stops tile `cs`; each token is what the reader finds at its offset, after
the character before it and inside the groups the tokens before it leave open; and it stops only
where the reader finds a problem. -/
structure ReadsRight (pre cs : List Char) (depth : Nat) (s : Scan) (rest : List Char) : Prop where
  tiles : Tiles pre.length cs s.tokens rest
  found : ∀ before t after, s.tokens = before ++ t :: after →
    matchAt ((pre ++ cs).take t.position).getLast? (openGroups depth before > 0)
      ((pre ++ cs).drop t.position) = .token t.lexeme t.text.length
  stop_none : s.stop = none ↔ rest = []
  stop_some : ∀ p q, s.stop = some (p, q) → rest = (pre ++ cs).drop q ∧
    matchAt ((pre ++ cs).take q).getLast? (openGroups depth s.tokens > 0) rest = .problem p

theorem readsRight_nil (pre : List Char) (depth : Nat) : ReadsRight pre [] depth ⟨[], none⟩ [] where
  tiles := .last (w := []) (by simp) (by simp) rfl
  found := by simp
  stop_none := by simp
  stop_some := by simp

theorem ReadsRight.cons_blank {pre cs rest : List Char} {c : Char} {depth : Nat} {s : Scan}
    (hc : isBlank c = true) (h : ReadsRight (pre ++ [c]) cs depth s rest) :
    ReadsRight pre (c :: cs) depth s rest := by
  obtain ⟨htiles, hfound, hnone, hsome⟩ := h
  have htext : pre ++ [c] ++ cs = pre ++ c :: cs := by simp
  rw [htext] at hfound hsome
  exact ⟨Tiles.cons_blank hc (by simpa using htiles), hfound, hnone, hsome⟩

theorem readsRight_problem {pre cs : List Char} {c : Char} {depth : Nat} {p : SyntaxProblem}
    (hc : ¬ isBlank c = true) (h : matchAt pre.getLast? (depth > 0) (c :: cs) = .problem p) :
    ReadsRight pre (c :: cs) depth ⟨[], some (p, pre.length)⟩ (c :: cs) where
  tiles := .last (w := []) (by simp) (by simpa using hc) rfl
  found := by simp
  stop_none := by simp
  stop_some := by
    intro p' q hq
    simp only [Option.some.injEq, Prod.mk.injEq] at hq
    obtain ⟨rfl, rfl⟩ := hq
    simp [h]

theorem ReadsRight.cons_token {pre cs rest : List Char} {c : Char} {depth : Nat} {s : Scan}
    {l : Lexeme} {n : Nat} (hc : ¬ isBlank c = true)
    (hm : matchAt pre.getLast? (depth > 0) (c :: cs) = .token l n)
    (h : ReadsRight (pre ++ (c :: cs).take n) ((c :: cs).drop n) (l.depthAfter depth) s rest) :
    ReadsRight pre (c :: cs) depth
      ⟨⟨l, String.ofList ((c :: cs).take n), pre.length⟩ :: s.tokens, s.stop⟩ rest := by
  obtain ⟨hpos, hle, -⟩ := matchAt_eq_token hm
  have htaken : ((c :: cs).take n).length = n := List.length_take_of_le hle
  obtain ⟨htiles, hfound, hnone, hsome⟩ := h
  have htext : pre ++ (c :: cs).take n ++ (c :: cs).drop n = pre ++ c :: cs := by
    rw [List.append_assoc, List.take_append_drop]
  rw [htext] at hfound hsome
  refine ⟨?_, ?_, hnone, ?_⟩
  · -- the token's text is the taken characters, which start with `c`
    refine .token (w := []) (by simp) (by simp) ⟨c, ?_, by simpa using hc⟩ ?_
      (by rw [String.toList_ofList, List.nil_append, List.take_append_drop])
    · rw [String.toList_ofList]
      obtain ⟨k, rfl⟩ := Nat.exists_eq_add_of_lt hpos
      simp
    · simpa [String.length_ofList, htaken] using htiles
  · intro before t after hsplit
    cases before with
    | nil =>
      simp only [List.nil_append, List.cons.injEq] at hsplit
      obtain ⟨rfl, -⟩ := hsplit
      simp [String.length_ofList, htaken, hm]
    | cons b before =>
      simp only [List.cons_append, List.cons.injEq] at hsplit
      obtain ⟨rfl, hsplit⟩ := hsplit
      simpa using hfound before t after hsplit
  · intro p q hq
    simpa using hsome p q hq

/-- **A reading from any place** is right, whatever text stands before it. -/
theorem scanFrom_readsRight {prev : Option Char} {pos depth : Nat} {cs : List Char}
    (pre : List Char) (hprev : prev = pre.getLast?) (hpos : pos = pre.length) :
    ∃ rest, ReadsRight pre cs depth (scanFrom prev pos depth cs) rest := by
  fun_induction scanFrom prev pos depth cs generalizing pre with
  | case1 => exact ⟨[], readsRight_nil pre _⟩
  | case2 prev pos depth c cs hc ih =>
    obtain ⟨rest, h⟩ := ih (pre ++ [c]) (by simp) (by simp [hpos])
    exact ⟨rest, h.cons_blank hc⟩
  | case3 prev pos depth c cs hc p hm =>
    subst hprev hpos
    exact ⟨c :: cs, readsRight_problem hc hm⟩
  | case4 prev pos depth c cs hc l n hm n' taken after ih =>
    subst hprev hpos
    obtain ⟨hpos, hle, -⟩ := matchAt_eq_token hm
    -- the token is never empty, so the step of at least one character is the token's length
    have hn : max n 1 = n := Nat.max_eq_left hpos
    simp only [after, taken, n', hn] at ih ⊢
    obtain ⟨k, rfl⟩ := Nat.exists_eq_add_of_lt hpos
    have hdrop : cs.drop (0 + k + 1 - 1) = (c :: cs).drop (0 + k + 1) := by simp
    have hlast : ((c :: cs).take (0 + k + 1)).getLast? =
        (pre ++ (c :: cs).take (0 + k + 1)).getLast? := by
      simp [List.getLast?_append, List.getLast?_cons]
    obtain ⟨rest, h⟩ := ih (pre ++ (c :: cs).take (0 + k + 1)) hlast
      (by simp only [List.length_cons] at hle; simp; omega)
    rw [hdrop] at h ⊢
    exact ⟨rest, h.cons_token hc hm⟩

/-- In a tiling the positions start at its offset and increase strictly, as no token's text is
empty. -/
theorem Tiles.positions {pos : Nat} {cs rest : List Char} {ts : List Token}
    (h : Tiles pos cs ts rest) :
    (∀ t ∈ ts, pos ≤ t.position) ∧ ts.Pairwise (fun a b => a.position < b.position) := by
  induction h with
  | last => simp
  | @token pos w more cs rest t ts hw hpos hfirst hmore hcs ih =>
    obtain ⟨c, hc, -⟩ := hfirst
    have hlen : 0 < t.text.length := by
      rw [← String.length_toList]
      cases htext : t.text.toList with
      | nil => simp [htext] at hc
      | cons => simp
    refine ⟨?_, List.pairwise_cons.2 ⟨fun b hb => ?_, ih.2⟩⟩
    · intro b hb
      rcases List.mem_cons.1 hb with rfl | hb
      · omega
      · have := ih.1 b hb
        omega
    · have := ih.1 b hb
      omega

/-- **The tokens of a script tile it.** The script is blanks, the first token's text, blanks,
the next token's text, and so on, and then blanks and a rest; the positions increase strictly.
Each token is what the reader finds at its position, so it is a weight exactly where a weight fits
and more groups have been opened than closed. The rest is empty unless the reading stopped, and it
stops where the rest starts, at a place where the reader is stuck. -/
theorem scan_tiles (source : String) :
    ∃ rest, Tiles 0 source.toList (scan source).tokens rest ∧
      (scan source).tokens.Pairwise (fun a b => a.position < b.position) ∧
      (∀ before t after, (scan source).tokens = before ++ t :: after →
        matchAt (source.toList.take t.position).getLast? (openGroups 0 before > 0)
            (source.toList.drop t.position) = .token t.lexeme t.text.length ∧
          (t.lexeme.IsWeight ↔ openGroups 0 before > 0 ∧
            (weightAt (source.toList.take t.position).getLast?
              (source.toList.drop t.position)).isSome)) ∧
      ((scan source).stop = none ↔ rest = []) ∧
      (∀ p q, (scan source).stop = some (p, q) → rest = source.toList.drop q ∧
        Stuck (source.toList.take q).getLast? (openGroups 0 (scan source).tokens > 0) rest p) := by
  obtain ⟨rest, h⟩ := @scanFrom_readsRight none 0 0 source.toList [] rfl rfl
  refine ⟨rest, h.tiles, h.tiles.positions.2, fun before t after hsplit => ?_, h.stop_none,
    fun p q hq => ?_⟩
  · have hfound := h.found before t after hsplit
    rw [List.nil_append] at hfound
    refine ⟨hfound, ?_⟩
    simpa using (matchAt_eq_token hfound).2.2
  · obtain ⟨hrest, hp⟩ := h.stop_some p q hq
    rw [List.nil_append] at hrest hp
    exact ⟨hrest, matchAt_eq_problem_iff.1 hp⟩

end Script

end ShapeGrammar
