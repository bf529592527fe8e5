import ShapeGrammar.Proofs.Parsing
/-!
# The grammar of scripts

A script is read in two stages: its text, comments blanked out, is scanned into tokens, and the
tokens are read into statements. This file states the grammar that the second stage follows and
proves that the reader accepts exactly it.

The grammar is stated twice. `Word` is the grammar over the kinds of tokens alone:

    top      ::= (define | setting | rule-def | transform | reference)*
    body     ::= (define | setting | rule-def | transform | reference | group)*
    rule-def ::= rule body end
    group    ::= open item* (bar item*)* close
    item     ::= transform | reference | weight

`Reads` follows the same grammar over the tokens themselves and says which statements they stand
for: a rule holds exactly the statements of the tokens between its head and its end, with the
options its head reads; a group holds one branch for each segment between its bars, whose
weight is that of the segment's last weight, or one when it has none; the top of a script holds
the statements outside every rule. Both read a prefix of a list and leave the rest, so that
their derivations follow the reader's steps.

The reader accepts exactly the scripts whose scan ends without a problem and whose tokens read
as statements (`parse_eq_ok_iff`); those are the scripts whose kinds of tokens form a word of
the grammar and whose rule heads all have options that can be read (`reads_iff_word`).
-/

namespace ShapeGrammar

namespace Script

/-- The kinds of tokens: all that the grammar of scripts looks at. -/
inductive Kind where
  | define
  | setting
  | rule
  | transform
  | reference
  | openGroup
  | bar
  | closeGroup
  | closeRule
  | weight
deriving DecidableEq, Repr

/-- The kind of a lexeme. -/
def Lexeme.kind : Lexeme → Kind
  | .define _ _ => .define
  | .setting _ _ => .setting
  | .rule _ _ => .rule
  | .transform _ _ => .transform
  | .reference _ _ _ => .reference
  | .openGroup => .openGroup
  | .bar => .bar
  | .closeGroup => .closeGroup
  | .closeRule => .closeRule
  | .weight _ => .weight

/-- The kind of a token. -/
def Token.kind (tok : Token) : Kind := tok.lexeme.kind

namespace Kind

/-- A kind that stands as a statement of its own: a definition, a setting or a term. -/
def standsAlone (k : Kind) : Bool :=
  k == .define || k == .setting || k == .transform || k == .reference

/-- An item of a group: a term or a weight. -/
def isItem (k : Kind) : Bool :=
  k == .transform || k == .reference || k == .weight

/-- A kind that may stand inside a group: an item or a bar. -/
def inGroup (k : Kind) : Bool :=
  k.isItem || k == .bar

end Kind

/-- **The grammar of scripts over the kinds of their tokens.** `Word inRule ks rest` says that
the statements of a body are read from the front of `ks`, leaving `rest`. A body inside a rule
(`inRule`) may hold groups; the top of a script may not. A group's brackets enclose items and
bars in any order, which is `item* (bar item*)*`. -/
inductive Word : Bool → List Kind → List Kind → Prop
  | nil (inRule : Bool) (ks : List Kind) : Word inRule ks ks
  | alone {inRule : Bool} {k : Kind} {ks rest : List Kind} :
      k.standsAlone → Word inRule ks rest → Word inRule (k :: ks) rest
  | rule {inRule : Bool} {ks ks' rest : List Kind} :
      Word true ks (.closeRule :: ks') → Word inRule ks' rest → Word inRule (.rule :: ks) rest
  | group {inner ks rest : List Kind} :
      (∀ k ∈ inner, k.inGroup) → Word true ks rest →
        Word true (.openGroup :: (inner ++ .closeGroup :: ks)) rest

/-- The value of a weight token. -/
def Token.weight? (tok : Token) : Option Float :=
  match tok.lexeme with
  | .weight w => some ((Number.readFloat? w).getD 0.0)
  | _ => none

/-- The branch that the items of one segment of a group give: its terms in order, weighing the
value of its last weight, or one when it has none. -/
def Branch.ofItems (items : List Token) : Branch :=
  ⟨((items.filterMap Token.weight?).getLast?).getD 1.0, items.filterMap Token.term?⟩

/-- The branches of a group: one for each segment between its bars. -/
def Branch.ofGroup (inner : List Token) : List Branch :=
  (inner.splitOnP fun t => t.kind == .bar).map Branch.ofItems

/-- **The statements that tokens stand for.** `Reads inRule ts ss rest` says that the statements
`ss` of a body are read from the front of `ts` by the grammar of `Word`, leaving `rest`. A rule
holds the statements of the tokens between its head and its end, and the options its head
reads; a group holds a branch for each segment between its bars. -/
inductive Reads : Bool → List Token → List Statement → List Token → Prop
  | nil (inRule : Bool) (ts : List Token) : Reads inRule ts [] ts
  | define {inRule : Bool} {tok : Token} {ts : List Token} {ss : List Statement} {rest : List Token}
      {name value : String} :
      tok.lexeme = .define name value → Reads inRule ts ss rest →
        Reads inRule (tok :: ts) (.define name value :: ss) rest
  | setting {inRule : Bool} {tok : Token} {ts : List Token} {ss : List Statement} {rest : List Token}
      {key value : String} :
      tok.lexeme = .setting key value → Reads inRule ts ss rest →
        Reads inRule (tok :: ts) (.setting key value :: ss) rest
  | term {inRule : Bool} {tok : Token} {ts : List Token} {ss : List Statement} {rest : List Token}
      {t : Term} :
      tok.term? = some t → Reads inRule ts ss rest → Reads inRule (tok :: ts) (.term t :: ss) rest
  | rule {inRule : Bool} {tok close : Token} {ts ts' : List Token} {body ss : List Statement}
      {rest : List Token} {name text : String} {o : RuleOptions} :
      tok.lexeme = .rule name text → RuleOptions.read text = .ok o →
        Reads true ts body (close :: ts') → close.lexeme = .closeRule → Reads inRule ts' ss rest →
          Reads inRule (tok :: ts) (.rule name o body :: ss) rest
  | group {tok close : Token} {inner ts : List Token} {ss : List Statement} {rest : List Token} :
      tok.lexeme = .openGroup → (∀ t ∈ inner, t.kind.inGroup) → close.lexeme = .closeGroup →
        Reads true ts ss rest →
          Reads true (tok :: (inner ++ close :: ts)) (.group (Branch.ofGroup inner) :: ss) rest

/-- Every rule head among the tokens has options that can be read. -/
def OptionsRead (ts : List Token) : Prop :=
  ∀ tok ∈ ts, ∀ name text, tok.lexeme = .rule name text → ∃ o, RuleOptions.read text = .ok o

/-! ## Kinds of tokens -/

namespace Lexeme

@[simp] theorem kind_eq_openGroup {l : Lexeme} : l.kind = .openGroup ↔ l = .openGroup := by
  cases l <;> simp [kind]

@[simp] theorem kind_eq_closeGroup {l : Lexeme} : l.kind = .closeGroup ↔ l = .closeGroup := by
  cases l <;> simp [kind]

@[simp] theorem kind_eq_closeRule {l : Lexeme} : l.kind = .closeRule ↔ l = .closeRule := by
  cases l <;> simp [kind]

@[simp] theorem kind_eq_bar {l : Lexeme} : l.kind = .bar ↔ l = .bar := by
  cases l <;> simp [kind]

theorem kind_eq_rule {l : Lexeme} : l.kind = .rule ↔ ∃ name text, l = .rule name text := by
  cases l <;> simp [kind]

end Lexeme

namespace Token

/-- A token stands for a term exactly when it is a transform or a reference. -/
theorem term?_isSome (tok : Token) : tok.term?.isSome ↔ tok.kind = .transform ∨ tok.kind = .reference := by
  unfold term? kind
  cases tok.lexeme <;> simp [Lexeme.kind]

/-- A token has a weight exactly when it is one. -/
theorem weight?_isSome (tok : Token) : tok.weight?.isSome ↔ tok.kind = .weight := by
  unfold weight? kind
  cases tok.lexeme <;> simp [Lexeme.kind]

/-- A token that stands alone is a definition, a setting or a term. -/
theorem alone_cases {tok : Token} (h : tok.kind.standsAlone) :
    (∃ name value, tok.lexeme = .define name value) ∨ (∃ key value, tok.lexeme = .setting key value) ∨
      ∃ t, tok.term? = some t := by
  rw [← Option.isSome_iff_exists, term?_isSome]
  obtain ⟨l, text, position⟩ := tok
  cases l <;> simp_all [kind, Lexeme.kind, Kind.standsAlone]

/-- A token inside a group is a term, a weight or a bar. -/
theorem inGroup_cases {tok : Token} (h : tok.kind.inGroup) :
    (∃ t, tok.term? = some t) ∨ (∃ w, tok.lexeme = .weight w) ∨ tok.lexeme = .bar := by
  rw [← Option.isSome_iff_exists, term?_isSome]
  obtain ⟨l, text, position⟩ := tok
  cases l <;> simp_all [kind, Lexeme.kind, Kind.inGroup, Kind.isItem]

theorem weight?_eq_none_of_term? {tok : Token} {t : Term} (h : tok.term? = some t) :
    tok.weight? = none := by
  obtain ⟨l, text, position⟩ := tok
  cases l <;> simp_all [term?, weight?]

theorem term?_eq_none_of_weight? {tok : Token} {v : Float} (h : tok.weight? = some v) :
    tok.term? = none := by
  obtain ⟨l, text, position⟩ := tok
  cases l <;> simp_all [term?, weight?]

theorem weight?_of_lexeme {tok : Token} {w : String} (h : tok.lexeme = .weight w) :
    tok.weight? = some ((Number.readFloat? w).getD 0.0) := by
  rw [weight?, h]

theorem kind_of_term? {tok : Token} {t : Term} (h : tok.term? = some t) :
    tok.kind = .transform ∨ tok.kind = .reference :=
  (term?_isSome tok).mp (by rw [h]; rfl)

theorem isItem_of_term? {tok : Token} {t : Term} (h : tok.term? = some t) : tok.kind.isItem := by
  rcases kind_of_term? h with hk | hk <;> simp [hk, Kind.isItem]

theorem standsAlone_of_term? {tok : Token} {t : Term} (h : tok.term? = some t) : tok.kind.standsAlone := by
  rcases kind_of_term? h with hk | hk <;> simp [hk, Kind.standsAlone]

theorem isItem_of_weight {tok : Token} {w : String} (h : tok.lexeme = .weight w) : tok.kind.isItem := by
  simp [kind, h, Lexeme.kind, Kind.isItem]

/-- A segment of items grows by an item. -/
theorem isItem_append {seg : List Token} (hseg : ∀ t ∈ seg, t.kind.isItem) {tok : Token}
    (h : tok.kind.isItem) : ∀ t ∈ seg ++ [tok], t.kind.isItem := by
  simp only [List.mem_append, List.mem_singleton]
  rintro t (ht | rfl)
  · exact hseg t ht
  · exact h

theorem kind_ne_bar_of_isItem {tok : Token} (h : tok.kind.isItem) : (tok.kind == .bar) = false := by
  revert h
  cases tok.kind <;> decide

end Token

/-! ## Reading a group

The reader keeps the branches it closed, and the weight and terms of the segment it is in. The
invariant that carries both directions is that those are the branch of the items of the segment
read so far (`Branch.ofItems seg`). -/

namespace Branch

theorem ofItems_nil : ofItems [] = ⟨1.0, []⟩ := rfl

/-- A weight at the end of a segment sets the segment's weight. -/
theorem ofItems_append_weight (seg : List Token) {tok : Token} {v : Float} (h : tok.weight? = some v) :
    ofItems (seg ++ [tok]) = ⟨v, (ofItems seg).body⟩ := by
  simp [ofItems, h, Token.term?_eq_none_of_weight? h]

/-- A term at the end of a segment is its last term. -/
theorem ofItems_append_term (seg : List Token) {tok : Token} {t : Term} (h : tok.term? = some t) :
    ofItems (seg ++ [tok]) = ⟨(ofItems seg).weight, (ofItems seg).body ++ [t]⟩ := by
  simp [ofItems, h, Token.weight?_eq_none_of_term? h]

/-- A group with no bar is one branch. -/
theorem ofGroup_of_items {seg : List Token} (h : ∀ t ∈ seg, t.kind.isItem) : ofGroup seg = [ofItems seg] := by
  rw [ofGroup, List.splitOnP_eq_singleton fun t ht => Token.kind_ne_bar_of_isItem (h t ht)]
  rfl

/-- A bar closes the branch of the segment before it. -/
theorem ofGroup_append_bar {seg : List Token} (h : ∀ t ∈ seg, t.kind.isItem) {tok : Token}
    (hbar : tok.lexeme = .bar) (inner : List Token) :
    ofGroup (seg ++ tok :: inner) = ofItems seg :: ofGroup inner := by
  have hsep : (tok.kind == .bar) = true := by simp [Token.kind, hbar, Lexeme.kind]
  rw [ofGroup, List.splitOnP_append_cons_of_forall_mem (fun t ht => Token.kind_ne_bar_of_isItem (h t ht))
    tok hsep]
  rfl

end Branch

/-- A reading's result, with what it leaves as a plain list of tokens. -/
def plain {α : Type} {ts : List Token} (x : Except Fault (α × Rest ts)) : Except Fault (α × List Token) :=
  x.map fun r => (r.1, r.2.1)

/-- Reading on from a shorter list leaves the same tokens. -/
theorem plain_map {α : Type} {ts ts' : List Token} (x : Except Fault (α × Rest ts))
    (g : α × Rest ts → α × Rest ts') (hg : ∀ a r, (g (a, r)).1 = a ∧ (g (a, r)).2.1 = r.1) :
    plain (x.map g) = plain x := by
  cases x with
  | error f => rfl
  | ok p =>
    obtain ⟨a, r⟩ := p
    simp only [plain, Except.map, (hg a r).1, (hg a r).2]

section Group

variable {rd : Reader} {opening tok : Token} {branches : List Branch} {weight : Float}
  {items : List Term} {rest : List Token}

theorem plain_readGroup_closeGroup (h : tok.lexeme = .closeGroup) :
    plain (readGroup rd opening branches weight items (tok :: rest)) =
      .ok (branches ++ [⟨weight, items⟩], rest) := by
  rw [readGroup, h]
  rfl

theorem plain_readGroup_bar (h : tok.lexeme = .bar) :
    plain (readGroup rd opening branches weight items (tok :: rest)) =
      plain (readGroup rd opening (branches ++ [⟨weight, items⟩]) 1.0 [] rest) := by
  rw [readGroup, h]
  exact plain_map _ _ fun _ _ => ⟨rfl, rfl⟩

theorem plain_readGroup_weight {w : String} (h : tok.lexeme = .weight w) :
    plain (readGroup rd opening branches weight items (tok :: rest)) =
      plain (readGroup rd opening branches ((Number.readFloat? w).getD 0.0) items rest) := by
  rw [readGroup, h]
  exact plain_map _ _ fun _ _ => ⟨rfl, rfl⟩

theorem plain_readGroup_term {t : Term} (h : tok.term? = some t) :
    plain (readGroup rd opening branches weight items (tok :: rest)) =
      plain (readGroup rd opening branches weight (items ++ [t]) rest) := by
  obtain ⟨l, text, position⟩ := tok
  cases l <;> simp only [Token.term?, reduceCtorEq] at h
  all_goals
    cases h
    rw [readGroup]
    exact plain_map _ _ fun _ _ => ⟨rfl, rfl⟩

end Group

/-- **A group is read to its bracket.** From inside a segment `seg`, items and bars followed by
the closing bracket are read as the branches of the segments between the bars. -/
theorem readGroup_complete (rd : Reader) (opening close : Token) (hclose : close.lexeme = .closeGroup)
    (rest : List Token) :
    ∀ (inner seg : List Token) (branches : List Branch),
      (∀ t ∈ seg, t.kind.isItem) → (∀ t ∈ inner, t.kind.inGroup) →
        plain (readGroup rd opening branches (Branch.ofItems seg).weight (Branch.ofItems seg).body
          (inner ++ close :: rest)) = .ok (branches ++ Branch.ofGroup (seg ++ inner), rest) := by
  intro inner
  induction inner with
  | nil =>
    intro seg branches hseg _
    rw [List.nil_append, plain_readGroup_closeGroup hclose, List.append_nil, Branch.ofGroup_of_items hseg]
  | cons tok inner ih =>
    intro seg branches hseg hinner
    have hrest : ∀ t ∈ inner, t.kind.inGroup := fun t ht => hinner t (List.mem_cons_of_mem tok ht)
    rw [List.cons_append]
    rcases Token.inGroup_cases (hinner tok List.mem_cons_self) with ⟨t, ht⟩ | ⟨w, hw⟩ | hbar
    · have h := ih (seg ++ [tok]) branches (Token.isItem_append hseg (Token.isItem_of_term? ht)) hrest
      rw [Branch.ofItems_append_term seg ht, List.append_assoc, List.singleton_append] at h
      rw [plain_readGroup_term ht]
      exact h
    · have h := ih (seg ++ [tok]) branches (Token.isItem_append hseg (Token.isItem_of_weight hw)) hrest
      rw [Branch.ofItems_append_weight seg (Token.weight?_of_lexeme hw), List.append_assoc,
        List.singleton_append] at h
      rw [plain_readGroup_weight hw]
      exact h
    · have h := ih [] (branches ++ [Branch.ofItems seg]) (by simp) hrest
      rw [List.nil_append, List.append_assoc, List.singleton_append] at h
      rw [plain_readGroup_bar hbar, Branch.ofGroup_append_bar hseg hbar]
      exact h

/-- An item read inside a group joins the segment before it: what the group reads from after
`seg ++ [tok]` it reads from after `seg`, with the item in front. -/
theorem group_of_item {tok : Token} (hitem : tok.kind.isItem) {branches bs : List Branch}
    {seg rest left : List Token}
    (h : ∃ inner close, rest = inner ++ close :: left ∧ close.lexeme = .closeGroup ∧
      (∀ t ∈ inner, t.kind.inGroup) ∧ bs = branches ++ Branch.ofGroup (seg ++ [tok] ++ inner)) :
    ∃ inner close, tok :: rest = inner ++ close :: left ∧ close.lexeme = .closeGroup ∧
      (∀ t ∈ inner, t.kind.inGroup) ∧ bs = branches ++ Branch.ofGroup (seg ++ inner) := by
  obtain ⟨inner, close, hrest, hclose, hinner, hbs⟩ := h
  refine ⟨tok :: inner, close, congrArg (List.cons tok) hrest, hclose, ?_, ?_⟩
  · exact List.forall_mem_cons.mpr ⟨by simp [Kind.inGroup, hitem], hinner⟩
  · rw [hbs]
    simp

/-- **A group read is a group of the grammar.** What the reader reads from inside a segment `seg`
are items and bars up to a closing bracket, and the branches it gives are those of the segments
between the bars. -/
theorem readGroup_sound {rd : Reader} {opening : Token} {branches : List Branch} {weight : Float}
    {items : List Term} {ts : List Token} {bs : List Branch} {r : Rest ts}
    (h : readGroup rd opening branches weight items ts = .ok (bs, r)) :
    ∀ seg : List Token, (∀ t ∈ seg, t.kind.isItem) → Branch.ofItems seg = ⟨weight, items⟩ →
      ∃ inner close, ts = inner ++ close :: r.1 ∧ close.lexeme = .closeGroup ∧
        (∀ t ∈ inner, t.kind.inGroup) ∧ bs = branches ++ Branch.ofGroup (seg ++ inner) := by
  fun_induction readGroup rd opening branches weight items ts generalizing bs
  case case3 branches weight items tok rest hclose =>
    intro seg hseg hof
    cases h
    refine ⟨[], tok, rfl, hclose, by simp, ?_⟩
    rw [List.append_nil, Branch.ofGroup_of_items hseg, hof]
  case case4 branches weight items tok rest hbar ih =>
    intro seg hseg hof
    obtain ⟨⟨bs', r'⟩, h', he⟩ := Except.exists_of_map_eq_ok h
    cases he
    -- the bar closes the segment, and a new one starts empty
    obtain ⟨inner, close, hts, hclose, hinner, hbs⟩ := ih h' [] (by simp) rfl
    refine ⟨tok :: inner, close, congrArg (List.cons tok) hts, hclose, ?_, ?_⟩
    · refine List.forall_mem_cons.mpr ⟨?_, hinner⟩
      simp [Token.kind, hbar, Lexeme.kind, Kind.inGroup]
    · rw [hbs, Branch.ofGroup_append_bar hseg hbar, hof]
      simp
  case case5 branches weight items tok rest w hw ih =>
    intro seg hseg hof
    obtain ⟨⟨bs', r'⟩, h', he⟩ := Except.exists_of_map_eq_ok h
    cases he
    have hof' : Branch.ofItems (seg ++ [tok]) = ⟨(Number.readFloat? w).getD 0.0, items⟩ := by
      rw [Branch.ofItems_append_weight seg (Token.weight?_of_lexeme hw), hof]
    exact group_of_item (Token.isItem_of_weight hw)
      (ih h' (seg ++ [tok]) (Token.isItem_append hseg (Token.isItem_of_weight hw)) hof')
  case case6 branches weight items tok rest t ht _ _ _ _ ih =>
    intro seg hseg hof
    obtain ⟨⟨bs', r'⟩, h', he⟩ := Except.exists_of_map_eq_ok h
    cases he
    have hof' : Branch.ofItems (seg ++ [tok]) = ⟨weight, items ++ [t]⟩ := by
      rw [Branch.ofItems_append_term seg ht, hof]
    exact group_of_item (Token.isItem_of_term? ht)
      (ih h' (seg ++ [tok]) (Token.isItem_append hseg (Token.isItem_of_term? ht)) hof')
  all_goals contradiction

/-! ## Reading a body -/

section Body

variable {rd : Reader} {rule : Option (Token × String)} {acc : List Statement} {tok : Token}
  {rest : List Token}

theorem plain_readBody_nil (h : rd.stop = none) : plain (readBody rd none acc []) = .ok (acc, []) := by
  rw [readBody.eq_def]
  simp only [h]
  rfl

theorem plain_readBody_closeRule {x : Token × String} (h : tok.lexeme = .closeRule) :
    plain (readBody rd (some x) acc (tok :: rest)) = .ok (acc, rest) := by
  rw [readBody, h]
  rfl

theorem plain_readBody_define {name value : String} (h : tok.lexeme = .define name value) :
    plain (readBody rd rule acc (tok :: rest)) = plain (readBody rd rule (acc ++ [.define name value]) rest) := by
  rw [readBody.eq_def]
  simp only [h]
  exact plain_map _ _ fun _ _ => ⟨rfl, rfl⟩

theorem plain_readBody_setting {key value : String} (h : tok.lexeme = .setting key value) :
    plain (readBody rd rule acc (tok :: rest)) = plain (readBody rd rule (acc ++ [.setting key value]) rest) := by
  rw [readBody.eq_def]
  simp only [h]
  exact plain_map _ _ fun _ _ => ⟨rfl, rfl⟩

theorem plain_readBody_term {t : Term} (h : tok.term? = some t) :
    plain (readBody rd rule acc (tok :: rest)) = plain (readBody rd rule (acc ++ [.term t]) rest) := by
  obtain ⟨l, text, position⟩ := tok
  cases l <;> simp only [Token.term?, reduceCtorEq] at h
  all_goals
    cases h
    rw [readBody.eq_def]
    exact plain_map _ _ fun _ _ => ⟨rfl, rfl⟩

/-- A rule is read with its body, and the reading goes on after the body's end. -/
theorem plain_readBody_rule {name text : String} {o : RuleOptions} {inner : List Statement}
    {left : List Token} (h : tok.lexeme = .rule name text) (ho : RuleOptions.read text = .ok o)
    (hin : plain (readBody rd (some (tok, name)) [] rest) = .ok (inner, left)) :
    plain (readBody rd rule acc (tok :: rest)) =
      plain (readBody rd rule (acc ++ [.rule name o inner]) left) := by
  obtain ⟨⟨inner', r⟩, hx, he⟩ := Except.exists_of_map_eq_ok hin
  cases he
  rw [readBody.eq_def]
  simp only [h, ho, hx]
  exact plain_map _ _ fun _ _ => ⟨rfl, rfl⟩

/-- A group is read to its bracket, and the reading goes on after it. -/
theorem plain_readBody_group {x : Token × String} {bs : List Branch} {left : List Token}
    (h : tok.lexeme = .openGroup) (hg : plain (readGroup rd tok [] 1.0 [] rest) = .ok (bs, left)) :
    plain (readBody rd (some x) acc (tok :: rest)) = plain (readBody rd (some x) (acc ++ [.group bs]) left) := by
  obtain ⟨⟨bs', r⟩, hx, he⟩ := Except.exists_of_map_eq_ok hg
  cases he
  rw [readBody.eq_def]
  simp only [h, hx]
  exact plain_map _ _ fun _ _ => ⟨rfl, rfl⟩

end Body

/-- **What the grammar reads, the reader reads.** Reading on from tokens whose front reads as
`ss` is reading on after `ss` from what they leave; a group may be read only inside a rule. -/
theorem readBody_complete {rd : Reader} {inRule : Bool} {ts : List Token} {ss : List Statement}
    {rest : List Token} (h : Reads inRule ts ss rest) :
    ∀ (rule : Option (Token × String)) (acc : List Statement), (inRule → rule.isSome) →
      plain (readBody rd rule acc ts) = plain (readBody rd rule (acc ++ ss) rest) := by
  induction h with
  | nil => intro rule acc _; rw [List.append_nil]
  | define hl _ ih =>
    intro rule acc hrule
    rw [plain_readBody_define hl, ih rule _ hrule, List.append_assoc, List.singleton_append]
  | setting hl _ ih =>
    intro rule acc hrule
    rw [plain_readBody_setting hl, ih rule _ hrule, List.append_assoc, List.singleton_append]
  | term ht _ ih =>
    intro rule acc hrule
    rw [plain_readBody_term ht, ih rule _ hrule, List.append_assoc, List.singleton_append]
  | @rule _ tok close ts₁ ts' body _ _ name _ _ hl ho _ hclose _ ihBody ih =>
    intro rule acc hrule
    -- the rule's body is read up to its end, with the rule as the one being read
    have hin : plain (readBody rd (some (tok, name)) [] ts₁) = .ok (body, ts') := by
      rw [ihBody (some (tok, name)) [] (fun _ => rfl), List.nil_append, plain_readBody_closeRule hclose]
    rw [plain_readBody_rule hl ho hin, ih rule _ hrule, List.append_assoc, List.singleton_append]
  | @group tok close inner ts₁ _ _ hl hinner hclose _ ih =>
    intro rule acc hrule
    obtain ⟨x, rfl⟩ := Option.isSome_iff_exists.mp (hrule rfl)
    have hg := readGroup_complete rd tok close hclose ts₁ inner [] [] (by simp) hinner
    simp only [List.nil_append] at hg
    rw [plain_readBody_group hl hg, ih (some x) _ hrule, List.append_assoc, List.singleton_append]

/-- How a body that the reader read ends: the top at the end of the tokens, with no problem in
their scan; a rule's body at the end of the rule, before what the reading leaves. -/
def BodyEnd (rd : Reader) : Option (Token × String) → List Token → List Token → Prop
  | none, rest, _ => rest = [] ∧ rd.stop = none
  | some _, rest, left => ∃ close, close.lexeme = .closeRule ∧ rest = close :: left

/-- **What the reader reads, the grammar reads.** The statements read after `acc` are read by
the grammar from the front of the tokens, up to where the body ends. -/
theorem readBody_sound {rd : Reader} {rule : Option (Token × String)} {acc : List Statement}
    {ts : List Token} {ss : List Statement} {r : Rest ts} (h : readBody rd rule acc ts = .ok (ss, r)) :
    ∃ ss' rest, ss = acc ++ ss' ∧ Reads rule.isSome ts ss' rest ∧ BodyEnd rd rule rest r.1 := by
  fun_induction readBody rd rule acc ts generalizing ss
  case case3 acc hstop =>
    cases h
    exact ⟨[], [], by simp, .nil _ _, rfl, hstop⟩
  case case5 acc tok rest hclose x =>
    cases h
    exact ⟨[], tok :: rest, by simp, .nil _ _, tok, hclose, rfl⟩
  case case6 rule acc tok rest name value hl ih =>
    obtain ⟨⟨ss₁, r₁⟩, h₁, he⟩ := Except.exists_of_map_eq_ok h
    cases he
    obtain ⟨ss', rest', hss, hreads, hend⟩ := ih h₁
    exact ⟨_, rest', by simp [hss], .define hl hreads, hend⟩
  case case7 rule acc tok rest key value hl ih =>
    obtain ⟨⟨ss₁, r₁⟩, h₁, he⟩ := Except.exists_of_map_eq_ok h
    cases he
    obtain ⟨ss', rest', hss, hreads, hend⟩ := ih h₁
    exact ⟨_, rest', by simp [hss], .setting hl hreads, hend⟩
  case case10 rule acc tok rest name text hl o ho inner r₁ hinner ihInner ih =>
    obtain ⟨⟨ss₁, r₂⟩, h₁, he⟩ := Except.exists_of_map_eq_ok h
    cases he
    -- the rule's body ends at its closing brace, and the reading goes on after it
    obtain ⟨body, _, hbody, hreadsBody, close, hclose, rfl⟩ := ihInner hinner
    obtain ⟨ss', rest', hss, hreads, hend⟩ := ih h₁
    rw [List.nil_append] at hbody
    subst hbody
    exact ⟨_, rest', by simp [hss], .rule hl ho hreadsBody hclose hreads, hend⟩
  case case13 acc tok rest hl x bs r₁ hg ih =>
    obtain ⟨⟨ss₁, r₂⟩, h₁, he⟩ := Except.exists_of_map_eq_ok h
    cases he
    obtain ⟨inner, close, hrest, hclose, hinner, hbs⟩ := readGroup_sound hg [] (by simp) rfl
    obtain ⟨ss', rest', hss, hreads, hend⟩ := ih h₁
    rw [List.nil_append, List.nil_append] at hbs
    subst hbs
    refine ⟨.group (Branch.ofGroup inner) :: ss', rest', by simp [hss], ?_, hend⟩
    rw [hrest]
    exact .group hl hinner hclose hreads
  case case14 rule acc tok rest t ht _ _ _ _ _ ih =>
    obtain ⟨⟨ss₁, r₁⟩, h₁, he⟩ := Except.exists_of_map_eq_ok h
    cases he
    obtain ⟨ss', rest', hss, hreads, hend⟩ := ih h₁
    exact ⟨_, rest', by simp [hss], .term ht hreads, hend⟩
  all_goals contradiction

/-! ## Reading a script -/

/-- The tokens of a text are those of its scan, when the scan ends without a problem. -/
theorem tokens_eq_ok_iff (source : String) (ts : List Token) :
    tokens source = .ok ts ↔ (scan source).stop = none ∧ (scan source).tokens = ts := by
  unfold tokens
  dsimp only
  cases hstop : (scan source).stop with
  | none => simp
  | some p =>
    obtain ⟨p, pos⟩ := p
    simp

theorem map_fst_of_plain {α : Type} {ts : List Token} {x : Except Fault (α × Rest ts)} {a : α}
    {left : List Token} (h : plain x = .ok (a, left)) : x.map Prod.fst = .ok a := by
  obtain ⟨⟨a', r⟩, hx, he⟩ := Except.exists_of_map_eq_ok h
  rw [hx]
  cases he
  rfl

/-- **A script is read exactly as its tokens stand for statements.** Its scan ends without a
problem, and its tokens, all of them, read as the statements at its top. -/
theorem parse_eq_ok_iff (script : String) (ss : List Statement) :
    parse script = .ok ss ↔ ∃ ts, tokens (stripComments script) = .ok ts ∧ Reads false ts ss [] := by
  constructor
  · intro h
    obtain ⟨⟨ss', r⟩, h', he⟩ := Except.exists_of_map_eq_ok h
    cases he
    -- the top ends only at the end of the tokens, and only when the scan had no problem
    obtain ⟨ss'', rest, hss, hreads, hrest, hstop⟩ := readBody_sound h'
    refine ⟨_, (tokens_eq_ok_iff _ _).mpr ⟨Option.map_eq_none_iff.mp hstop, rfl⟩, ?_⟩
    rw [hss, List.nil_append, ← hrest]
    exact hreads
  · rintro ⟨ts, hts, hreads⟩
    obtain ⟨hstop, rfl⟩ := (tokens_eq_ok_iff _ _).mp hts
    unfold parse
    refine @map_fst_of_plain _ _ _ _ [] ?_
    rw [readBody_complete hreads none [] (fun h => absurd h Bool.false_ne_true), List.nil_append,
      plain_readBody_nil]
    simp only [hstop, Option.map_none]

/-! ## The grammar of kinds -/

theorem OptionsRead.mono {ts l : List Token} (h : OptionsRead ts) (hl : ∀ t ∈ l, t ∈ ts) : OptionsRead l :=
  fun t ht => h t (hl t ht)

/-- A token that is no rule head adds nothing to check. -/
theorem OptionsRead.cons {ts : List Token} (h : OptionsRead ts) {tok : Token} (hk : tok.kind ≠ .rule) :
    OptionsRead (tok :: ts) := by
  refine List.forall_mem_cons.mpr ⟨fun name text hl => ?_, h⟩
  exact absurd (by simp [Token.kind, hl, Lexeme.kind]) hk

theorem Token.kind_ne_rule_of_term? {tok : Token} {t : Term} (h : tok.term? = some t) : tok.kind ≠ .rule := by
  rcases Token.kind_of_term? h with hk | hk <;> simp [hk]

theorem Token.kind_ne_rule_of_inGroup {tok : Token} (h : tok.kind.inGroup) : tok.kind ≠ .rule := by
  intro hk
  simp [hk, Kind.inGroup, Kind.isItem] at h

namespace Reads

variable {inRule : Bool} {ts : List Token} {ss : List Statement} {rest : List Token}

/-- What a reading leaves is a suffix of what it read from. -/
theorem suffix (h : Reads inRule ts ss rest) : rest <:+ ts := by
  induction h with
  | nil => exact List.suffix_refl _
  | define _ _ ih => exact ih.trans (List.suffix_cons _ _)
  | setting _ _ ih => exact ih.trans (List.suffix_cons _ _)
  | term _ _ ih => exact ih.trans (List.suffix_cons _ _)
  | rule _ _ _ _ _ ihBody ih =>
    exact ih.trans ((List.suffix_cons _ _).trans (ihBody.trans (List.suffix_cons _ _)))
  | group _ _ _ _ ih =>
    exact ih.trans ((List.suffix_cons _ _).trans ((List.suffix_append _ _).trans (List.suffix_cons _ _)))

/-- Every rule head that a reading passes has options that can be read. -/
theorem optionsRead (h : Reads inRule ts ss rest) (hrest : OptionsRead rest) : OptionsRead ts := by
  induction h with
  | nil => exact hrest
  | define hl _ ih => exact (ih hrest).cons (by simp [Token.kind, hl, Lexeme.kind])
  | setting hl _ ih => exact (ih hrest).cons (by simp [Token.kind, hl, Lexeme.kind])
  | term ht _ ih => exact (ih hrest).cons (Token.kind_ne_rule_of_term? ht)
  | rule hl ho _ hclose _ ihBody ih =>
    -- the head's options were read, and the body's end is no rule head
    have hbody := ihBody ((ih hrest).cons (by simp [Token.kind, hclose, Lexeme.kind]))
    refine List.forall_mem_cons.mpr ⟨fun name text hl' => ?_, hbody⟩
    rw [hl] at hl'
    cases hl'
    exact ⟨_, ho⟩
  | group hl hinner hclose _ ih =>
    refine (OptionsRead.cons ?_ (by simp [Token.kind, hl, Lexeme.kind]))
    refine List.forall_mem_append.mpr ⟨fun t ht => ?_, (ih hrest).cons (by simp [Token.kind, hclose, Lexeme.kind])⟩
    exact (OptionsRead.cons (fun _ h => absurd h List.not_mem_nil) (Token.kind_ne_rule_of_inGroup (hinner t ht))) t
      List.mem_cons_self

/-- **What tokens read as, their kinds read as.** -/
theorem word (h : Reads inRule ts ss rest) : Word inRule (ts.map Token.kind) (rest.map Token.kind) := by
  induction h with
  | nil => exact .nil _ _
  | define hl _ ih => exact .alone (by simp [Token.kind, hl, Lexeme.kind, Kind.standsAlone]) ih
  | setting hl _ ih => exact .alone (by simp [Token.kind, hl, Lexeme.kind, Kind.standsAlone]) ih
  | term ht _ ih => exact .alone (Token.standsAlone_of_term? ht) ih
  | @rule _ tok close _ _ _ _ _ _ _ _ hl _ _ hclose _ ihBody ih =>
    have hk : tok.kind = .rule := by simp [Token.kind, hl, Lexeme.kind]
    have hck : close.kind = .closeRule := by simp [Token.kind, hclose]
    rw [List.map_cons, hck] at ihBody
    rw [List.map_cons, hk]
    exact .rule ihBody ih
  | @group tok close _ _ _ _ hl hinner hclose _ ih =>
    have hk : tok.kind = .openGroup := by simp [Token.kind, hl]
    have hck : close.kind = .closeGroup := by simp [Token.kind, hclose]
    rw [List.map_cons, hk, List.map_append, List.map_cons, hck]
    exact .group (List.forall_mem_map.mpr hinner) ih

end Reads

/-- **What kinds read as, their tokens read as**, when every rule head's options can be read. -/
theorem Word.reads {inRule : Bool} {ks rk : List Kind} (h : Word inRule ks rk) :
    ∀ ts : List Token, ts.map Token.kind = ks → OptionsRead ts →
      ∃ ss rest, rest.map Token.kind = rk ∧ Reads inRule ts ss rest := by
  induction h with
  | nil => exact fun ts hts _ => ⟨[], ts, hts, .nil _ _⟩
  | alone hk _ ih =>
    intro ts hts hopts
    obtain ⟨tok, ts', rfl, rfl, hts'⟩ := List.map_eq_cons_iff.mp hts
    obtain ⟨ss, rest, hrest, hreads⟩ := ih ts' hts' (hopts.mono fun t => List.mem_cons_of_mem tok)
    rcases Token.alone_cases hk with ⟨name, value, hl⟩ | ⟨key, value, hl⟩ | ⟨t, ht⟩
    · exact ⟨_, rest, hrest, .define hl hreads⟩
    · exact ⟨_, rest, hrest, .setting hl hreads⟩
    · exact ⟨_, rest, hrest, .term ht hreads⟩
  | rule _ _ ihBody ih =>
    intro ts hts hopts
    obtain ⟨tok, ts₁, rfl, hk, hts₁⟩ := List.map_eq_cons_iff.mp hts
    obtain ⟨name, text, hl⟩ := Lexeme.kind_eq_rule.mp hk
    obtain ⟨o, ho⟩ := hopts tok List.mem_cons_self name text hl
    have hopts₁ : OptionsRead ts₁ := hopts.mono fun t => List.mem_cons_of_mem tok
    -- the body's reading ends at the rule's end, and the rest is read after it
    obtain ⟨body, rest₁, hrest₁, hbody⟩ := ihBody ts₁ hts₁ hopts₁
    obtain ⟨close, ts', rfl, hck, hts'⟩ := List.map_eq_cons_iff.mp hrest₁
    have hsub : ∀ t ∈ ts', t ∈ ts₁ := fun t ht => hbody.suffix.subset (List.mem_cons_of_mem close ht)
    obtain ⟨ss, rest, hrest, hreads⟩ := ih ts' hts' (hopts₁.mono hsub)
    exact ⟨_, rest, hrest, .rule hl ho hbody (Lexeme.kind_eq_closeRule.mp hck) hreads⟩
  | group hinner _ ih =>
    intro ts hts hopts
    obtain ⟨tok, ts₁, rfl, hk, hts₁⟩ := List.map_eq_cons_iff.mp hts
    obtain ⟨inner, l₂, rfl, hinner', hl₂⟩ := List.map_eq_append_iff.mp hts₁
    obtain ⟨close, ts', rfl, hck, hts'⟩ := List.map_eq_cons_iff.mp hl₂
    obtain ⟨ss, rest, hrest, hreads⟩ :=
      ih ts' hts' (hopts.mono fun t ht => by simp [ht])
    subst hinner'
    exact ⟨_, rest, hrest, .group (Lexeme.kind_eq_openGroup.mp hk) (List.forall_mem_map.mp hinner)
      (Lexeme.kind_eq_closeGroup.mp hck) hreads⟩

/-- **Tokens read as a whole script exactly when their kinds form a word of the grammar and
every rule head's options can be read.** -/
theorem reads_iff_word (ts : List Token) :
    (∃ ss, Reads false ts ss []) ↔ Word false (ts.map Token.kind) [] ∧ OptionsRead ts := by
  constructor
  · rintro ⟨ss, h⟩
    exact ⟨h.word, h.optionsRead fun _ h => absurd h List.not_mem_nil⟩
  · rintro ⟨hw, hopts⟩
    obtain ⟨ss, rest, hrest, hreads⟩ := hw.reads ts rfl hopts
    rw [List.map_eq_nil_iff] at hrest
    subst hrest
    exact ⟨ss, hreads⟩

/-- **The reader accepts exactly the grammar of scripts.** A script is read exactly when its scan
ends without a problem, the kinds of its tokens form a word of the grammar, and the options of
every rule head can be read. What is read is what the tokens stand for: each rule holds the
statements between its head and its end, each group a branch for each segment between its bars,
weighing its last weight or one, and the top the statements outside every rule. -/
theorem parse_accepts_exactly_grammar (script : String) :
    ((∃ ss, parse script = .ok ss) ↔
      ∃ ts, tokens (stripComments script) = .ok ts ∧ Word false (ts.map Token.kind) [] ∧ OptionsRead ts) ∧
    ∀ ss, parse script = .ok ss ↔ ∃ ts, tokens (stripComments script) = .ok ts ∧ Reads false ts ss [] := by
  refine ⟨⟨?_, ?_⟩, parse_eq_ok_iff script⟩
  · rintro ⟨ss, h⟩
    obtain ⟨ts, hts, hreads⟩ := (parse_eq_ok_iff script ss).mp h
    exact ⟨ts, hts, (reads_iff_word ts).mp ⟨ss, hreads⟩⟩
  · rintro ⟨ts, hts, hw, hopts⟩
    obtain ⟨ss, hreads⟩ := (reads_iff_word ts).mpr ⟨hw, hopts⟩
    exact ⟨ss, (parse_eq_ok_iff script ss).mpr ⟨ts, hts, hreads⟩⟩

end Script

end ShapeGrammar
