import Mathlib.Data.List.Forall2
import ShapeGrammar.Script.Comment
import ShapeGrammar.Fault
/-!
# Blanking comments keeps every position

A script's comments are found by one scan from the left. At a character of code, `//` opens a
line comment, which runs to the end of its line, and `/*` opens a block comment when a `*/`
follows somewhere after it; the comment ends at the first such `*/`. Any other character is
code. `Pieces` states this split of a text into code and comments on its own, apart from the
blanking loop; every text has exactly one split (`pieces_exist`, `Pieces.unique`).

`Script.stripComments` keeps every character of code and blanks every comment character by
character (`Pieces.stripFrom_eq`): a line feed stays, anything else becomes a space. Every
character of the result is the script's own or its blank (`stripFrom_keptOrBlanked`), so the
result is as long as the script and has its line feeds in the same places. Lines and columns
count line feeds only (`Spot.locate_eq_of_lineFeeds`), so an offset in the blanked text names
the same line and column of the script. A blanked text holds no comment (`pieces_stripFrom`),
so blanking it again changes nothing.
-/

namespace ShapeGrammar

namespace Script

/-! ## Comments as the scan from the left finds them -/

/-- A piece of a script: one character of code, or a whole comment. -/
inductive Piece where
  /-- A character outside every comment. -/
  | code (c : Char)
  /-- `//` and the rest of its line, the line feed excluded. -/
  | lineComment (body : List Char)
  /-- `/*`, a body that holds no `*/`, and the `*/` that ends it. -/
  | blockComment (body : List Char)
deriving DecidableEq, Repr

namespace Piece

/-- The characters of a piece. -/
def text : Piece → List Char
  | .code c => [c]
  | .lineComment body => '/' :: '/' :: body
  | .blockComment body => '/' :: '*' :: body ++ ['*', '/']

/-- What blanking does to each character of a piece: nothing in code, `blankOut` in a
comment. -/
def blank : Piece → Char → Char
  | .code _ => id
  | .lineComment _ | .blockComment _ => blankOut

/-- The piece as blanking leaves it. -/
def blanked (p : Piece) : List Char := p.text.map p.blank

end Piece

/-- A comment opens at the front of the text: `//`, or `/*` with a `*/` somewhere after it. -/
def OpensComment (cs : List Char) : Prop :=
  (∃ rest, cs = '/' :: '/' :: rest) ∨ ∃ rest, cs = '/' :: '*' :: rest ∧ ['*', '/'] <:+: rest

/-- How the scan from the left splits a text into pieces. -/
inductive Pieces : List Char → List Piece → Prop
  | nil : Pieces [] []
  /-- A character at which no comment opens is code. -/
  | code {c : Char} {rest : List Char} {ps : List Piece} :
      ¬ OpensComment (c :: rest) → Pieces rest ps → Pieces (c :: rest) (.code c :: ps)
  /-- A line comment runs up to the next line feed, or to the end of the text. -/
  | lineComment {body rest : List Char} {ps : List Piece} :
      '\n' ∉ body → (∀ c ∈ rest.head?, c = '\n') → Pieces rest ps →
      Pieces ('/' :: '/' :: body ++ rest) (.lineComment body :: ps)
  /-- A block comment ends at the first `*/` after its `/*`. -/
  | blockComment {body rest : List Char} {ps : List Piece} :
      ¬ ['*', '/'] <:+: body → Pieces rest ps →
      Pieces ('/' :: '*' :: body ++ '*' :: '/' :: rest) (.blockComment body :: ps)

/-- The pieces make up the text. -/
theorem Pieces.text_eq {cs : List Char} {ps : List Piece} (h : Pieces cs ps) :
    cs = ps.flatMap Piece.text := by
  induction h with
  | nil => rfl
  | code _ _ ih => simp [Piece.text, ih]
  | lineComment _ _ _ ih => simp [Piece.text, ih]
  | blockComment _ _ ih => simp [Piece.text, ih]

/-- `closesBlock` reads two characters at a time. -/
theorem closesBlock_cons_cons (c d : Char) (rest : List Char) :
    closesBlock (c :: d :: rest) = ((c == '*' && d == '/') || closesBlock (d :: rest)) := by
  by_cases hc : c = '*' <;> by_cases hd : d = '/' <;> simp [closesBlock, hc, hd]

/-- `closesBlock` looks for `*/` anywhere in the text. -/
theorem closesBlock_iff (cs : List Char) : closesBlock cs = true ↔ ['*', '/'] <:+: cs := by
  induction cs with
  | nil => simp [closesBlock]
  | cons c rest ih =>
    rw [List.infix_cons_iff, ← ih]
    cases rest with
    | nil => simp [closesBlock]
    | cons d rest =>
      simp only [closesBlock_cons_cons, List.prefix_cons_iff, Bool.or_eq_true, Bool.and_eq_true,
        beq_iff_eq]
      grind

/-- No comment opens at a character other than `/`. -/
theorem not_opensComment_of_ne {c : Char} (hc : c ≠ '/') (rest : List Char) :
    ¬ OpensComment (c :: rest) := by
  rintro (⟨_, h⟩ | ⟨_, h, -⟩) <;> exact hc (List.cons.inj h).1

/-! ## The blanking loop, piece by piece -/

/-- At a character of code the loop keeps the character and stays in code. A `/*` with no `*/`
after it falls under this case. -/
theorem stripFrom_code_cons {c : Char} {rest : List Char} (h : ¬ OpensComment (c :: rest)) :
    stripFrom .code (c :: rest) = c :: stripFrom .code rest := by
  by_cases hc : c = '/'
  · subst hc
    cases rest with
    | nil => simp [stripFrom]
    | cons d r =>
      by_cases hd : d = '/'
      · exact absurd (Or.inl ⟨r, by rw [hd]⟩) h
      by_cases hd' : d = '*'
      · subst hd'
        have hr : closesBlock r = false := by
          rw [← Bool.not_eq_true, closesBlock_iff]
          exact fun hr => h (Or.inr ⟨r, rfl, hr⟩)
        simp [stripFrom, hr]
      · simp [stripFrom, hd, hd']
  · simp [stripFrom, hc]

/-- The body of a line comment, which holds no line feed, becomes spaces. -/
theorem stripFrom_line_append {body : List Char} (h : '\n' ∉ body) (rest : List Char) :
    stripFrom .line (body ++ rest) = body.map blankOut ++ stripFrom .line rest := by
  induction body with
  | nil => rfl
  | cons c body ih =>
    have hc : c ≠ '\n' := fun hc => h (hc ▸ List.mem_cons_self ..)
    have hbody : '\n' ∉ body := fun hm => h (List.mem_cons_of_mem _ hm)
    simp [stripFrom, blankOut, hc, ih hbody]

/-- A line comment ends at a line feed or at the end of the text, and the scan is back in code. -/
theorem stripFrom_line_end {rest : List Char} (h : ∀ c ∈ rest.head?, c = '\n') :
    stripFrom .line rest = stripFrom .code rest := by
  cases rest with
  | nil => simp [stripFrom]
  | cons c rest =>
    obtain rfl : c = '\n' := h c rfl
    simp [stripFrom]

/-- The body of a block comment, which holds no `*/`, is blanked up to the `*/` that ends it. -/
theorem stripFrom_block_append {body : List Char} (h : ¬ ['*', '/'] <:+: body) (rest : List Char) :
    stripFrom .block (body ++ '*' :: '/' :: rest) =
      body.map blankOut ++ ' ' :: ' ' :: stripFrom .code rest := by
  induction body with
  | nil => simp [stripFrom]
  | cons c body ih =>
    have hbody : ¬ ['*', '/'] <:+: body := fun hb => h (List.infix_cons hb)
    -- `c` and the character after it are no `*/`, which would lie in the body or be the end
    have hstep : stripFrom .block (c :: (body ++ '*' :: '/' :: rest)) =
        blankOut c :: stripFrom .block (body ++ '*' :: '/' :: rest) := by
      cases body with
      | nil => by_cases hc : c = '*' <;> simp [stripFrom, hc]
      | cons d body =>
        have hcd : ¬ (c = '*' ∧ d = '/') := by
          rintro ⟨rfl, rfl⟩
          exact h (List.prefix_append ['*', '/'] body).isInfix
        by_cases hc : c = '*' <;> by_cases hd : d = '/' <;> simp_all [stripFrom]
    rw [List.cons_append, hstep, ih hbody]
    rfl

/-- **Blanking follows the pieces.** For a split of the text into pieces, the loop keeps every
character of code and blanks every comment. -/
theorem Pieces.stripFrom_eq {cs : List Char} {ps : List Piece} (h : Pieces cs ps) :
    stripFrom .code cs = ps.flatMap Piece.blanked := by
  induction h with
  | nil => rfl
  | code hc _ ih => rw [stripFrom_code_cons hc, ih]; rfl
  | lineComment hbody hrest _ ih =>
    rw [List.cons_append, List.cons_append]
    simp only [stripFrom]
    rw [stripFrom_line_append hbody, stripFrom_line_end hrest, ih]
    simp [Piece.blanked, Piece.text, Piece.blank, blankOut]
  | @blockComment body rest _ hbody _ ih =>
    have hclose : closesBlock (body ++ '*' :: '/' :: rest) = true :=
      (closesBlock_iff _).2 ⟨body, rest, by simp⟩
    rw [List.cons_append, List.cons_append]
    simp only [stripFrom, hclose, if_true]
    rw [stripFrom_block_append hbody, ih]
    simp [Piece.blanked, Piece.text, Piece.blank, blankOut]

/-! ## Every text has exactly one split -/

/-- A text that holds `*/` is a body without `*/`, the first `*/`, and the rest. -/
theorem exists_first_close {cs : List Char} (h : ['*', '/'] <:+: cs) :
    ∃ body rest, cs = body ++ '*' :: '/' :: rest ∧ ¬ ['*', '/'] <:+: body := by
  induction cs with
  | nil => simp at h
  | cons c cs ih =>
    by_cases hp : ['*', '/'] <+: c :: cs
    · obtain ⟨rest, hrest⟩ := hp
      exact ⟨[], rest, by simpa using hrest.symm, by simp⟩
    · obtain ⟨body, rest, rfl, hb⟩ := ih ((List.infix_cons_iff.1 h).resolve_left hp)
      refine ⟨c :: body, rest, rfl, ?_⟩
      rw [List.infix_cons_iff]
      rintro (hp' | hb')
      · exact hp (hp'.trans (List.prefix_append _ _))
      · exact hb hb'

/-- **Every text splits into pieces.** -/
theorem pieces_exist (cs : List Char) : ∃ ps, Pieces cs ps := by
  by_cases hopen : OpensComment cs
  · rcases hopen with ⟨rest, rfl⟩ | ⟨rest, rfl, hclose⟩
    · -- the comment runs to the first line feed
      obtain ⟨ps, hps⟩ := pieces_exist (rest.dropWhile (· != '\n'))
      have hbody : '\n' ∉ rest.takeWhile (· != '\n') := by
        intro hm
        simpa using List.all_eq_true.1 List.all_takeWhile _ hm
      have hrest : ∀ c ∈ (rest.dropWhile (· != '\n')).head?, c = '\n' := by
        intro c hc
        have := List.head?_dropWhile_not (· != '\n') rest
        rw [Option.mem_def.1 hc] at this
        simpa using this
      have key := Pieces.lineComment hbody hrest hps
      rw [List.cons_append, List.cons_append, List.takeWhile_append_dropWhile] at key
      exact ⟨_, key⟩
    · -- the comment runs to the first `*/`
      obtain ⟨body, after, rfl, hbody⟩ := exists_first_close hclose
      obtain ⟨ps, hps⟩ := pieces_exist after
      exact ⟨_, by simpa using Pieces.blockComment hbody hps⟩
  · cases cs with
    | nil => exact ⟨[], .nil⟩
    | cons c rest =>
      obtain ⟨ps, hps⟩ := pieces_exist rest
      exact ⟨_, .code hopen hps⟩
termination_by cs.length
decreasing_by
  all_goals
    subst_vars
    simp only [List.length_cons, List.length_append]
  · have := (List.dropWhile_suffix (· != '\n') (l := rest)).length_le
    omega
  · omega
  · omega

/-- A text splits in one way only at its first line feed, or at its end. -/
theorem eq_of_append_eq_of_lineEnd {b₁ b₂ r₁ r₂ : List Char} (hb₁ : '\n' ∉ b₁) (hb₂ : '\n' ∉ b₂)
    (hr₁ : ∀ c ∈ r₁.head?, c = '\n') (hr₂ : ∀ c ∈ r₂.head?, c = '\n') (h : b₁ ++ r₁ = b₂ ++ r₂) :
    b₁ = b₂ ∧ r₁ = r₂ := by
  induction b₁ generalizing b₂ with
  | nil =>
    cases b₂ with
    | nil => exact ⟨rfl, h⟩
    | cons x b₂ =>
      subst h
      exact absurd (hr₁ x rfl ▸ List.mem_cons_self ..) hb₂
  | cons a b₁ ih =>
    cases b₂ with
    | nil =>
      subst h
      exact absurd (hr₂ a rfl ▸ List.mem_cons_self ..) hb₁
    | cons x b₂ =>
      simp only [List.cons_append, List.cons.injEq] at h
      obtain ⟨rfl, h⟩ := h
      obtain ⟨rfl, rfl⟩ := ih (fun hm => hb₁ (List.mem_cons_of_mem _ hm))
        (fun hm => hb₂ (List.mem_cons_of_mem _ hm)) h
      exact ⟨rfl, rfl⟩

/-- A text splits in one way only at its first `*/`. -/
theorem eq_of_append_eq_of_close {b₁ b₂ r₁ r₂ : List Char} (hb₁ : ¬ ['*', '/'] <:+: b₁)
    (hb₂ : ¬ ['*', '/'] <:+: b₂) (h : b₁ ++ '*' :: '/' :: r₁ = b₂ ++ '*' :: '/' :: r₂) :
    b₁ = b₂ ∧ r₁ = r₂ := by
  induction b₁ generalizing b₂ with
  | nil =>
    cases b₂ with
    | nil => simpa using h
    | cons x b₂ =>
      cases b₂ with
      | nil => simp at h
      | cons y b₂ =>
        simp only [List.nil_append, List.cons_append, List.cons.injEq] at h
        obtain ⟨rfl, rfl, -⟩ := h
        exact absurd (List.prefix_append ['*', '/'] b₂).isInfix hb₂
  | cons a b₁ ih =>
    cases b₂ with
    | nil =>
      cases b₁ with
      | nil => simp at h
      | cons y b₁ =>
        simp only [List.nil_append, List.cons_append, List.cons.injEq] at h
        obtain ⟨rfl, rfl, -⟩ := h
        exact absurd (List.prefix_append ['*', '/'] b₁).isInfix hb₁
    | cons x b₂ =>
      simp only [List.cons_append, List.cons.injEq] at h
      obtain ⟨rfl, h⟩ := h
      obtain ⟨rfl, rfl⟩ := ih (fun hm => hb₁ (List.infix_cons hm))
        (fun hm => hb₂ (List.infix_cons hm)) h
      exact ⟨rfl, rfl⟩

/-- **A text has only one split.** -/
theorem Pieces.unique {cs : List Char} {ps qs : List Piece} (hp : Pieces cs ps) (hq : Pieces cs qs) :
    ps = qs := by
  induction hp generalizing qs with
  | nil => cases hq; rfl
  | code hc _ ih =>
    cases hq with
    | code _ hq => rw [ih hq]
    | lineComment => exact absurd (Or.inl ⟨_, rfl⟩) hc
    | @blockComment body rest _ _ _ => exact absurd (Or.inr ⟨_, rfl, ⟨body, rest, by simp⟩⟩) hc
  | @lineComment body rest _ hb hr _ ih =>
    generalize hcs : '/' :: '/' :: body ++ rest = cs at hq
    cases hq with
    | nil => simp at hcs
    | code hc _ => exact absurd (Or.inl ⟨_, hcs.symm⟩) hc
    | lineComment hb' hr' hq =>
      obtain ⟨rfl, rfl⟩ := eq_of_append_eq_of_lineEnd hb hb' hr hr' (by simpa using hcs)
      rw [ih hq]
    | blockComment => simp at hcs
  | @blockComment body rest _ hb _ ih =>
    generalize hcs : '/' :: '*' :: body ++ '*' :: '/' :: rest = cs at hq
    cases hq with
    | nil => simp at hcs
    | code hc _ => exact absurd (Or.inr ⟨_, hcs.symm, ⟨body, rest, by simp⟩⟩) hc
    | lineComment => simp at hcs
    | blockComment hb' hq =>
      obtain ⟨rfl, rfl⟩ := eq_of_append_eq_of_close hb hb' (by simpa using hcs)
      rw [ih hq]

/-! ## Each character is kept or blanked -/

/-- A character of the blanked text stands for the script's character at the same place: it is
that character, or its blank. -/
def KeptOrBlanked (a b : Char) : Prop := b = a ∨ b = blankOut a

/-- A blank is a line feed or a space. -/
theorem blankOut_cases (c : Char) : blankOut c = '\n' ∨ blankOut c = ' ' := by
  unfold blankOut
  split <;> simp

/-- A blank is a line feed exactly where the character was one. -/
theorem blankOut_eq_lf_iff (c : Char) : blankOut c = '\n' ↔ c = '\n' := by
  unfold blankOut
  split <;> simp_all

/-- A character of the blanked text that is no line feed and no space is the script's own. -/
theorem KeptOrBlanked.eq_of_ne {a b : Char} (h : KeptOrBlanked a b) (hlf : b ≠ '\n')
    (hsp : b ≠ ' ') : b = a := by
  rcases h with h | rfl
  · exact h
  · rcases blankOut_cases a with h | h
    · exact absurd h hlf
    · exact absurd h hsp

/-- **Every character is kept or blanked**, in every mode of the scan. -/
theorem stripFrom_keptOrBlanked (m : CommentMode) (cs : List Char) :
    List.Forall₂ KeptOrBlanked cs (stripFrom m cs) := by
  fun_induction stripFrom m cs with
  | case1 => exact .nil
  | case2 _ ih => exact .cons (.inr rfl) (.cons (.inr rfl) ih)
  | case3 _ _ ih => exact .cons (.inr rfl) (.cons (.inr rfl) ih)
  | case4 _ _ ih => exact .cons (.inl rfl) ih
  | case5 _ _ _ _ ih => exact .cons (.inl rfl) ih
  | case6 c _ hc ih => exact .cons (.inl (eq_of_beq hc).symm) ih
  | case7 c _ hc ih => exact .cons (.inr (by simp [blankOut, hc])) ih
  | case8 _ ih => exact .cons (.inr rfl) (.cons (.inr rfl) ih)
  | case9 _ _ _ ih => exact .cons (.inr rfl) ih

/-- Keeping or blanking characters keeps every line feed and adds none. -/
theorem lineFeeds_eq_of_keptOrBlanked {cs ds : List Char} (h : List.Forall₂ KeptOrBlanked cs ds) :
    cs.map (· == '\n') = ds.map (· == '\n') := by
  induction h with
  | nil => rfl
  | @cons a b _ _ hab _ ih =>
    have hlf : (a == '\n') = (b == '\n') := by
      rcases hab with rfl | rfl
      · rfl
      · simp only [beq_eq_decide, blankOut_eq_lf_iff]
    rw [List.map_cons, List.map_cons, hlf, ih]

/-- Keeping or blanking characters makes no new `*/`. -/
theorem closesBlock_of_keptOrBlanked {cs ds : List Char} (h : List.Forall₂ KeptOrBlanked cs ds)
    (hd : closesBlock ds = true) : closesBlock cs = true := by
  induction h with
  | nil => simp [closesBlock] at hd
  | @cons a b l₁ l₂ hab htail ih =>
    cases htail with
    | nil => simp [closesBlock] at hd
    | @cons a' b' l₁' l₂' hab' htail' =>
      rw [closesBlock_cons_cons] at hd ⊢
      simp only [Bool.or_eq_true, Bool.and_eq_true, beq_iff_eq] at hd ⊢
      rcases hd with ⟨rfl, rfl⟩ | hd
      · exact Or.inl ⟨(hab.eq_of_ne (by decide) (by decide)).symm,
          (hab'.eq_of_ne (by decide) (by decide)).symm⟩
      · exact Or.inr (ih hd)

/-! ## Lines and columns -/

/-- **Lines and columns count line feeds only**: two texts with line feeds in the same places
give every offset the same line and column. -/
theorem Spot.locate_eq_of_lineFeeds {cs ds : List Char}
    (h : cs.map (· == '\n') = ds.map (· == '\n')) (pos : Nat) :
    Spot.locate cs pos = Spot.locate ds pos := by
  -- both counts read the text through `(· == '\n')` only
  have hcount : ∀ l : List Char,
      (l.take pos).count '\n' = ((l.map (· == '\n')).take pos).count true := by
    intro l
    simp [List.count_eq_countP, ← List.map_take, List.countP_map, Function.comp_def]
  have hcolumn : ∀ l : List Char, ((l.take pos).reverse.takeWhile (· != '\n')).length =
      (((l.map (· == '\n')).take pos).reverse.takeWhile (!·)).length := by
    intro l
    rw [← List.map_take, ← List.map_reverse, List.takeWhile_map, List.length_map]
    rfl
  simp only [Spot.locate, hcount, hcolumn, h]

/-- Two texts with line feeds in the same places have a line feed at the same offsets. -/
theorem getElem?_eq_lf_iff_of_lineFeeds {cs ds : List Char}
    (h : cs.map (· == '\n') = ds.map (· == '\n')) (i : Nat) :
    cs[i]? = some '\n' ↔ ds[i]? = some '\n' := by
  have hi := congrArg (fun l : List Bool => l[i]?) h
  simp only [List.getElem?_map] at hi
  cases hc : cs[i]? <;> cases hd : ds[i]? <;> simp_all

/-! ## A blanked text holds no comment -/

/-- Every character of a blanked text is code. -/
theorem pieces_stripFrom (m : CommentMode) (cs : List Char) :
    Pieces (stripFrom m cs) ((stripFrom m cs).map .code) := by
  have space : ∀ l, ¬ OpensComment (' ' :: l) := not_opensComment_of_ne (by decide)
  fun_induction stripFrom m cs with
  | case1 => exact .nil
  | case2 _ ih => exact .code (space _) (.code (space _) ih)
  | case3 _ _ ih => exact .code (space _) (.code (space _) ih)
  | case4 rest hopen ih =>
    -- `/*` with no `*/` stays, and blanking makes no `*/` after it
    have hstar : stripFrom .code ('*' :: rest) = '*' :: stripFrom .code rest :=
      stripFrom_code_cons (not_opensComment_of_ne (by decide) rest)
    refine .code ?_ ih
    rw [hstar]
    rintro (⟨_, h⟩ | ⟨_, h, hclose⟩)
    · simp at h
    · obtain ⟨-, rfl⟩ := List.cons.inj (List.cons.inj h).2
      exact hopen (closesBlock_of_keptOrBlanked (stripFrom_keptOrBlanked .code rest)
        ((closesBlock_iff _).2 hclose))
  | case5 c rest hslash hstar ih =>
    refine .code ?_ ih
    -- a kept `/` is followed by neither `/` nor `*`, kept or blanked
    rintro (⟨_, h⟩ | ⟨_, h, -⟩) <;>
    · obtain ⟨rfl, hrest⟩ := List.cons.inj h
      have hk := stripFrom_keptOrBlanked .code rest
      rw [hrest] at hk
      cases hk with
      | @cons d _ _ _ hd _ =>
        first
          | exact hslash _ rfl (by rw [← hd.eq_of_ne (by decide) (by decide)])
          | exact hstar _ rfl (by rw [← hd.eq_of_ne (by decide) (by decide)])
  | case6 _ _ _ ih => exact .code (not_opensComment_of_ne (by decide) _) ih
  | case7 _ _ _ ih => exact .code (space _) ih
  | case8 _ ih => exact .code (space _) (.code (space _) ih)
  | case9 c _ _ ih =>
    refine .code (not_opensComment_of_ne ?_ _) ih
    rcases blankOut_cases c with h | h <;> rw [h] <;> decide

/-- A text that is all code is its own blanking. -/
theorem stripFrom_code_of_plain {cs : List Char} (h : Pieces cs (cs.map .code)) :
    stripFrom .code cs = cs := by
  rw [h.stripFrom_eq]
  simp [List.flatMap_map, Piece.blanked, Piece.text, Piece.blank]

/-! ## Blanking comments -/

/-- **Blanking comments keeps every position.** The blanked script is as long as the script and
has its line feeds in the same places. The script splits in exactly one way into code and
comments by the scan's rules, and the blanked script is that split with the code kept and every
comment blanked. Blanking again changes nothing, and every offset has the same line and column in
the blanked script as in the script. -/
theorem stripComments_keeps_positions (s : String) :
    (stripComments s).length = s.length ∧
    (∀ i : Nat, (stripComments s).toList[i]? = some '\n' ↔ s.toList[i]? = some '\n') ∧
    (∃ ps, Pieces s.toList ps ∧ (∀ qs, Pieces s.toList qs → qs = ps) ∧
      s.toList = ps.flatMap Piece.text ∧ (stripComments s).toList = ps.flatMap Piece.blanked) ∧
    stripComments (stripComments s) = stripComments s ∧
    ∀ pos, Spot.locate (stripComments s).toList pos = Spot.locate s.toList pos := by
  have hlist : (stripComments s).toList = stripFrom .code s.toList := String.toList_ofList
  have hkept := stripFrom_keptOrBlanked .code s.toList
  have hfeeds := lineFeeds_eq_of_keptOrBlanked hkept
  obtain ⟨ps, hps⟩ := pieces_exist s.toList
  refine ⟨?_, fun i => ?_,
    ⟨ps, hps, fun qs hqs => hqs.unique hps, hps.text_eq, hlist ▸ hps.stripFrom_eq⟩, ?_, fun pos => ?_⟩
  · rw [← String.length_toList, ← String.length_toList, hlist]
    exact hkept.length_eq.symm
  · rw [hlist]
    exact (getElem?_eq_lf_iff_of_lineFeeds hfeeds i).symm
  · unfold stripComments
    rw [String.toList_ofList, stripFrom_code_of_plain (pieces_stripFrom .code _)]
  · rw [hlist]
    exact Spot.locate_eq_of_lineFeeds hfeeds.symm pos

end Script

end ShapeGrammar
