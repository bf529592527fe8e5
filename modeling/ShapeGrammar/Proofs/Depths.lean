import ShapeGrammar.Proofs.Frames
/-!
# Depth counters count the active frames

A walk in place is a tree of calls: a rule walks its body, or past its limit its
fallback; a body walks its chains; a chain repeats its first block and walks the rest of
itself after each repeat, or walks its reference; a reference places an object or walks
the rule it names. `Calls` is one edge of that tree, with what the caller counted before
it made the call: a rule it entered (`Entry.rule`), or the scope of the rule it descends
into (`Entry.scope`). `Reaches` follows edges down from a call and collects those
entries, innermost first: they are the frames active at the call reached.

The main result is that at every call reached from the start of a build, the observer's
included, the depth counter of a name is the number of active entries of that name.
Every limit a rule or a reference checks is therefore a limit on how many frames of a
name are active, and when the build ends every counter is back at zero. For a top-level
rule that calls itself the count gives the depth of the walk in closed form.
-/

namespace ShapeGrammar

namespace InPlace

variable {σ : Type}

/-- A frame of the walk that counts a name while it is active: a rule entered, with
whether its body is walked (or else, past its limit, its fallback); or a reference
descending into a rule, which counts the scope that defines the rule. -/
inductive Entry where
  | rule (r : Rule) (walked : Bool)
  | scope (s : Rule)

namespace Entry

/-- The entry is a rule named `n`. -/
def isRule (n : String) : Entry → Bool
  | rule r _ => n == r.name
  | scope _ => false

/-- The entry is a reference into a child of a scope named `n`. -/
def isScope (n : String) : Entry → Bool
  | scope s => n == s.name
  | rule _ _ => false

end Entry

/-- The active rules named `n`, walked or not. -/
def rulesNamed (n : String) (es : List Entry) : Nat := es.countP (Entry.isRule n)

/-- The active references into a child of a scope named `n`. -/
def scopesNamed (n : String) (es : List Entry) : Nat := es.countP (Entry.isScope n)

@[simp] theorem rulesNamed_nil (n : String) : rulesNamed n [] = 0 := rfl

@[simp] theorem scopesNamed_nil (n : String) : scopesNamed n [] = 0 := rfl

@[simp] theorem rulesNamed_append (n : String) (es es' : List Entry) :
    rulesNamed n (es ++ es') = rulesNamed n es + rulesNamed n es' := List.countP_append

@[simp] theorem scopesNamed_append (n : String) (es es' : List Entry) :
    scopesNamed n (es ++ es') = scopesNamed n es + scopesNamed n es' := List.countP_append

@[simp] theorem rulesNamed_rule (n : String) (r : Rule) (w : Bool) (es : List Entry) :
    rulesNamed n (.rule r w :: es) = rulesNamed n es + if n = r.name then 1 else 0 := by
  simp only [rulesNamed, List.countP_cons, Entry.isRule, beq_iff_eq]

@[simp] theorem rulesNamed_scope (n : String) (s : Rule) (es : List Entry) :
    rulesNamed n (.scope s :: es) = rulesNamed n es := by
  simp [rulesNamed, Entry.isRule]

@[simp] theorem scopesNamed_rule (n : String) (r : Rule) (w : Bool) (es : List Entry) :
    scopesNamed n (.rule r w :: es) = scopesNamed n es := by
  simp [scopesNamed, Entry.isScope]

@[simp] theorem scopesNamed_scope (n : String) (s : Rule) (es : List Entry) :
    scopesNamed n (.scope s :: es) = scopesNamed n es + if n = s.name then 1 else 0 := by
  simp only [scopesNamed, List.countP_cons, Entry.isScope, beq_iff_eq]

/-- A call of the walk in place, with what it is made on. -/
inductive Call (σ : Type) where
  | rule (fuel : Nat) (st : Status σ) (i : Nat) (fallback : Bool)
  | body (fuel : Nat) (st : Status σ) (cs : List Chain)
  | chain (fuel : Nat) (st : Status σ) (bs : List Block) (target : Option Reference)
  | repeated (fuel : Nat) (st : Status σ) (d : Delta) (bs : List Block)
      (target : Option Reference) (n : Nat) (last : Flow)
  | reference (fuel : Nat) (st : Status σ) (ref : Reference)
  /-- An object is placed: the observer is shown it unless a limit stops the build. -/
  | place (st : Status σ) (ref : Reference)

namespace Call

/-- The status a call is made on. -/
def status : Call σ → Status σ
  | rule _ st _ _ => st
  | body _ st _ => st
  | chain _ st _ _ => st
  | repeated _ st _ _ _ _ _ => st
  | reference _ st _ => st
  | place st _ => st

/-- The call a build starts with: the root, from the start frame, with all its fuel. -/
def start (sc : Scene) (init : σ) (seed : Int) : Call σ :=
  .rule (Walk.fuelFor sc) (Status.ofFrame Walk.start (Walk.begin init seed)) 0 true

@[simp] theorem status_rule (fuel : Nat) (st : Status σ) (i : Nat) (fb : Bool) :
    (rule fuel st i fb).status = st := rfl

@[simp] theorem status_body (fuel : Nat) (st : Status σ) (cs : List Chain) :
    (body fuel st cs).status = st := rfl

@[simp] theorem status_chain (fuel : Nat) (st : Status σ) (bs : List Block)
    (target : Option Reference) : (chain fuel st bs target).status = st := rfl

@[simp] theorem status_repeated (fuel : Nat) (st : Status σ) (d : Delta) (bs : List Block)
    (target : Option Reference) (n : Nat) (last : Flow) :
    (repeated fuel st d bs target n last).status = st := rfl

@[simp] theorem status_reference (fuel : Nat) (st : Status σ) (ref : Reference) :
    (reference fuel st ref).status = st := rfl

@[simp] theorem status_place (st : Status σ) (ref : Reference) : (place st ref).status = st := rfl

@[simp] theorem depths_start (sc : Scene) (init : σ) (seed : Int) (n : String) :
    (start sc init seed).status.depths.get n = 0 := rfl

end Call

/-- `Calls sc obs c e c'`: the call `c` makes the call `c'`, having counted `e` first, if
anything. The premises are the conditions under which `InPlace` makes the call. -/
inductive Calls (sc : Scene) (obs : Observer σ) : Call σ → Option Entry → Call σ → Prop where
  /-- A rule entered within its limit walks its body. -/
  | body {fuel : Nat} {st : Status σ} {i : Nat} {fb : Bool} {r : Rule}
      (hr : sc.grammar.rule? i = some r) (hne : r.body.isEmpty = false)
      (hle : (st.pushRule i r.name).depths.get r.name ≤ sc.limitOf r) :
      Calls sc obs (.rule (fuel + 1) st i fb) (some (.rule r true))
        (.body fuel (st.pushRule i r.name) r.body)
  /-- A rule entered past its limit walks its fallback, with no fallback of its own. -/
  | fallback {fuel : Nat} {st : Status σ} {i : Nat} {r : Rule} {label : String} {t : Nat}
      {tw : Twister} (hr : sc.grammar.rule? i = some r) (hne : r.body.isEmpty = false)
      (hgt : ¬(st.pushRule i r.name).depths.get r.name ≤ sc.limitOf r)
      (hfb : r.fallback = some label)
      (hfind : sc.grammar.find i label st.progress.twister = (some t, tw)) :
      Calls sc obs (.rule (fuel + 1) st i true) (some (.rule r false))
        (.rule fuel ((st.pushRule i r.name).withProgress { st.progress with twister := tw }) t false)
  /-- A body walks its first chain, -/
  | head {fuel : Nat} {st : Status σ} {c : Chain} {cs : List Chain} :
      Calls sc obs (.body fuel st (c :: cs)) none (.chain fuel st c.blocks c.target)
  /-- and the rest of its chains after one that says to go on. -/
  | next {fuel : Nat} {st st' : Status σ} {c : Chain} {cs : List Chain}
      (h : chain sc obs fuel st c.blocks c.target = .ok (.more, st')) :
      Calls sc obs (.body fuel st (c :: cs)) none (.body fuel st' cs)
  /-- A chain with no blocks walks its reference. -/
  | target {fuel : Nat} {st : Status σ} {ref : Reference} :
      Calls sc obs (.chain fuel st [] (some ref)) none (.reference fuel st ref)
  /-- A chain saves the status and repeats its first block. -/
  | block {fuel : Nat} {st : Status σ} {b : Block} {bs : List Block}
      {target : Option Reference} {d : Delta} (hd : sc.deltaOf b = .ok d) :
      Calls sc obs (.chain fuel st (b :: bs) target) none
        (.repeated fuel st.push d bs target b.count .more)
  /-- Each repeat applies the block and walks the rest of the chain, -/
  | rest {fuel : Nat} {st : Status σ} {d : Delta} {bs : List Block} {target : Option Reference}
      {n : Nat} {last : Flow} (hrest : (bs.isEmpty && target.isNone) = false) :
      Calls sc obs (.repeated fuel st d bs target (n + 1) last) none
        (.chain fuel (st.apply d) bs target)
  /-- and repeats again unless that stopped the build; -/
  | again {fuel : Nat} {st st' : Status σ} {d : Delta} {bs : List Block}
      {target : Option Reference} {n : Nat} {last flow : Flow}
      (hrest : (bs.isEmpty && target.isNone) = false)
      (h : chain sc obs fuel (st.apply d) bs target = .ok (flow, st')) (hflow : flow ≠ .stop) :
      Calls sc obs (.repeated fuel st d bs target (n + 1) last) none
        (.repeated fuel st' d bs target n flow)
  /-- a block with nothing after it is only applied. -/
  | alone {fuel : Nat} {st : Status σ} {d : Delta} {bs : List Block} {target : Option Reference}
      {n : Nat} {last : Flow} (hrest : (bs.isEmpty && target.isNone) = true) :
      Calls sc obs (.repeated fuel st d bs target (n + 1) last) none
        (.repeated fuel (st.apply d) d bs target n last)
  /-- A reference that names no rule places an object; -/
  | place {fuel : Nat} {st : Status σ} {ref : Reference} {tw : Twister}
      (hfind : sc.grammar.find st.rule ref.label st.progress.twister = (none, tw)) :
      Calls sc obs (.reference fuel st ref) none
        (.place (st.withProgress { st.progress with twister := tw }) ref)
  /-- one that names a rule counts the rule's scope one deeper and, within the scope's
  limit, walks the rule. -/
  | descend {fuel : Nat} {st : Status σ} {ref : Reference} {i : Nat} {tw : Twister} {s : Rule}
      (hfind : sc.grammar.find st.rule ref.label st.progress.twister = (some i, tw))
      (hs : ((sc.grammar.rule? i).bind fun r => r.parent.bind sc.grammar.rule?) = some s)
      (hle : (st.depths.bump s.name).get s.name ≤ sc.limitOf s) :
      Calls sc obs (.reference fuel st ref) (some (.scope s))
        (.rule fuel { st.withProgress { st.progress with twister := tw } with
          depths := st.depths.bump s.name } i true)

/-- `Reaches sc obs c es c'`: the call `c'` is made down a path of calls from `c`, and
`es` are the entries counted along the path, innermost first. -/
inductive Reaches (sc : Scene) (obs : Observer σ) (c : Call σ) : List Entry → Call σ → Prop where
  | refl : Reaches sc obs c [] c
  | tail {es : List Entry} {c₁ c₂ : Call σ} {e : Option Entry} :
      Reaches sc obs c es c₁ → Calls sc obs c₁ e c₂ → Reaches sc obs c (e.toList ++ es) c₂

variable {sc : Scene} {obs : Observer σ}

/-- **A call counts its entry and nothing else**: the depth counters of the call made are
those of the caller with the name of the entry, if any, one deeper. -/
theorem Calls.depths_get {c c' : Call σ} {e : Option Entry} (h : Calls sc obs c e c')
    (n : String) :
    c'.status.depths.get n = c.status.depths.get n + rulesNamed n e.toList + scopesNamed n e.toList := by
  cases h with
  | @body _ _ _ _ r => by_cases hn : n = r.name <;> simp [hn]
  | @fallback _ _ _ r => by_cases hn : n = r.name <;> simp [hn]
  | head => simp
  | next h => rw [chain_keeps_status h]; simp
  | target => simp
  | block => simp
  | rest => simp
  | again _ h => rw [chain_keeps_status h]; simp
  | alone => simp
  | place => simp
  | @descend _ _ _ _ _ s => by_cases hn : n = s.name <;> simp [hn]

/-- **Along a path of calls the counters count the entries**: each name is as deep as at
the first call, plus the rules of that name entered and the references into a scope of
that name on the path. -/
theorem Reaches.depths_get {c c' : Call σ} {es : List Entry} (h : Reaches sc obs c es c')
    (n : String) :
    c'.status.depths.get n = c.status.depths.get n + rulesNamed n es + scopesNamed n es := by
  induction h with
  | refl => simp
  | tail _ hstep ih =>
    rw [hstep.depths_get n, ih]
    simp only [rulesNamed_append, scopesNamed_append]
    omega

theorem Reaches.next {c₀ c c' : Call σ} {es : List Entry} (h : Reaches sc obs c₀ es c)
    (h' : Calls sc obs c none c') : Reaches sc obs c₀ es c' := by
  simpa using h.tail h'

theorem Reaches.enter {c₀ c c' : Call σ} {es : List Entry} {e : Entry}
    (h : Reaches sc obs c₀ es c) (h' : Calls sc obs c (some e) c') :
    Reaches sc obs c₀ (e :: es) c' := by
  simpa using h.tail h'

/-! ## The limits are limits on active frames -/

section Limits

variable {c₀ c : Call σ} {es : List Entry}

/-- **A body is walked only within its rule's limit**: when a rule reached down a path
walks its body, the active entries of its name, its own included, reach at most the
rule's limit, from the depths of the first call. -/
theorem Reaches.body_within_limit {fuel : Nat} {st : Status σ} {i : Nat} {fb : Bool} {r : Rule}
    (hreach : Reaches sc obs c₀ es (.rule fuel st i fb))
    (hstep : Calls sc obs (.rule fuel st i fb) (some (.rule r true)) c) :
    c₀.status.depths.get r.name + rulesNamed r.name (.rule r true :: es)
      + scopesNamed r.name (.rule r true :: es) ≤ sc.limitOf r := by
  have hdepth := hreach.depths_get r.name
  cases hstep with
  | body _ _ hle =>
    simp only [Call.status_rule] at hdepth
    simp only [Status.depths_pushRule, Depths.get_bump, ↓reduceIte] at hle
    simp only [rulesNamed_rule, scopesNamed_rule, ↓reduceIte]
    omega

/-- **A reference descends only within its scope's limit**: when a reference reached
down a path walks a rule, the active entries of the name of the rule's scope, the
reference's own included, reach at most the scope's limit. -/
theorem Reaches.descend_within_limit {fuel : Nat} {st : Status σ} {ref : Reference} {s : Rule}
    (hreach : Reaches sc obs c₀ es (.reference fuel st ref))
    (hstep : Calls sc obs (.reference fuel st ref) (some (.scope s)) c) :
    c₀.status.depths.get s.name + rulesNamed s.name (.scope s :: es)
      + scopesNamed s.name (.scope s :: es) ≤ sc.limitOf s := by
  have hdepth := hreach.depths_get s.name
  cases hstep with
  | descend _ _ hle =>
    simp only [Call.status_reference] at hdepth
    simp only [Depths.get_bump, ↓reduceIte] at hle
    simp only [rulesNamed_scope, scopesNamed_scope, ↓reduceIte]
    omega

end Limits

/-- **Every counter is back at zero when a build ends**, whether the walk ran out of rules
or was stopped. -/
theorem depths_after_build {init : σ} {seed : Int} {f : Flow} {st : Status σ}
    (h : rule sc obs (Walk.fuelFor sc) (Status.ofFrame Walk.start (Walk.begin init seed)) 0 true
      = .ok (f, st)) (n : String) : st.depths.get n = 0 := by
  rw [rule_keeps_status h]
  rfl

end InPlace

/-! ## The deepest limit -/

namespace Walk

theorem le_foldl_max {α : Type} (f : α → Int) :
    ∀ (xs : List α) (acc : Int), acc ≤ xs.foldl (fun acc x => max acc (f x)) acc
  | [], _ => Int.le_refl _
  | x :: xs, acc => Int.le_trans (Int.le_max_left acc (f x)) (le_foldl_max f xs _)

theorem le_foldl_max_of_mem {α : Type} (f : α → Int) {x : α} :
    ∀ {xs : List α} (acc : Int), x ∈ xs → f x ≤ xs.foldl (fun acc x => max acc (f x)) acc
  | y :: ys, acc, h => by
    rw [List.foldl_cons]
    rcases List.mem_cons.mp h with rfl | h
    · exact Int.le_trans (Int.le_max_right acc (f x)) (le_foldl_max f ys _)
    · exact le_foldl_max_of_mem f _ h

/-- The settings' depth limit is at most the deepest limit. -/
theorem maxDepth_le_deepest (sc : Scene) : sc.settings.maxDepth ≤ deepest sc := by
  have h := le_foldl_max sc.limitOf sc.grammar.rules.toList sc.settings.maxDepth
  rw [Array.foldl_toList] at h
  unfold deepest
  omega

/-- The depth limit of every rule of the grammar is at most the deepest limit. -/
theorem limitOf_le_deepest {sc : Scene} {i : Nat} {r : Rule} (hr : sc.grammar.rule? i = some r) :
    sc.limitOf r ≤ deepest sc := by
  have hmem : r ∈ sc.grammar.rules.toList := Array.mem_toList_iff.mpr (Array.mem_of_getElem? hr)
  have h := le_foldl_max_of_mem sc.limitOf sc.settings.maxDepth hmem
  rw [Array.foldl_toList] at h
  unfold deepest
  omega

end Walk

/-! ## A rule that calls itself from the top level -/

namespace Grammar

/-- The candidates of a label are the children of that name of one rule, or none. -/
theorem candidates_eq (g : Grammar) (s : Nat) (label : String) :
    g.candidates s label = [] ∨
      ∃ t r, g.rule? t = some r ∧ g.candidates s label = r.childrenNamed label := by
  unfold candidates Option.getD
  split
  · rename_i cs hcs
    right
    obtain ⟨t, -, ht⟩ := List.exists_of_findSome?_eq_some hcs
    split at ht
    · rename_i r hr
      split at ht
      · cases ht
      · cases ht
        exact ⟨t, r, hr, rfl⟩
    · cases ht
  · left
    rfl

/-- The body `{ name }`: one reference to `name`. -/
def callOf (name : String) : List Chain := [⟨[], some ⟨name, none, none⟩⟩]

/-- The top level of the script `name rule name { name }`: it defines the rule and calls it. -/
def selfCallingTop (name : String) : Rule :=
  { Rule.root with children := [(name, [1])], body := callOf name }

/-- The rule of the script `name rule name { name }`: it calls itself, and has `maxDepth`
as its own depth limit if it has one. -/
def selfCallingRule (name : String) (maxDepth : Option Int) : Rule :=
  ⟨name, some 0, 1.0, maxDepth, none, [], callOf name⟩

/-- The grammar of the script `name rule name { name }`, with `maxDepth` the rule's own
depth limit if it has one: a top-level rule whose body is one reference to itself,
referenced once from the top level. -/
def selfCalling (name : String) (maxDepth : Option Int) : Grammar :=
  ⟨#[selfCallingTop name, selfCallingRule name maxDepth]⟩

section SelfCalling

variable {name : String} {maxDepth : Option Int}

@[simp] theorem name_selfCallingTop : (selfCallingTop name).name = Rule.rootName := rfl

@[simp] theorem maxDepth_selfCallingTop : (selfCallingTop name).maxDepth = none := rfl

@[simp] theorem body_selfCallingTop : (selfCallingTop name).body = callOf name := rfl

@[simp] theorem name_selfCallingRule : (selfCallingRule name maxDepth).name = name := rfl

@[simp] theorem maxDepth_selfCallingRule : (selfCallingRule name maxDepth).maxDepth = maxDepth :=
  rfl

@[simp] theorem body_selfCallingRule : (selfCallingRule name maxDepth).body = callOf name := rfl

@[simp] theorem selfCalling_rule?_zero :
    (selfCalling name maxDepth).rule? 0 = some (selfCallingTop name) := rfl

@[simp] theorem selfCalling_rule?_one :
    (selfCalling name maxDepth).rule? 1 = some (selfCallingRule name maxDepth) := rfl

@[simp] theorem selfCalling_rule?_add_two (i : Nat) : (selfCalling name maxDepth).rule? (i + 2) = none :=
  rfl

@[simp] theorem selfCalling_size : (selfCalling name maxDepth).size = 2 := rfl

/-- Neither rule of the grammar has a fallback. -/
theorem selfCalling_fallback {i : Nat} {r : Rule} (h : (selfCalling name maxDepth).rule? i = some r) :
    r.fallback = none := by
  match i, h with
  | 0, h => cases h; rfl
  | 1, h => cases h; rfl

/-- A label names the rule or nothing, and no draw is made. -/
theorem selfCalling_find (s : Nat) (label : String) (tw : Twister) :
    (selfCalling name maxDepth).find s label tw = (none, tw) ∨
      (selfCalling name maxDepth).find s label tw = (some 1, tw) := by
  have hc : (selfCalling name maxDepth).candidates s label = [] ∨
      (selfCalling name maxDepth).candidates s label = [1] := by
    rcases candidates_eq (selfCalling name maxDepth) s label with h | ⟨t, r, hr, h⟩
    · exact .inl h
    · rw [h]
      match t, hr with
      | 0, hr =>
        simp only [selfCalling_rule?_zero, Option.some.injEq] at hr
        subst hr
        by_cases hl : name = label
        · subst hl
          simp [Rule.childrenNamed, selfCallingTop]
        · simp [Rule.childrenNamed, selfCallingTop, hl]
      | 1, hr =>
        simp only [selfCalling_rule?_one, Option.some.injEq] at hr
        subst hr
        exact .inl rfl
  rcases hc with hc | hc
  · left
    simp [find, hc]
  · right
    simp [find, hc]

/-- A label that names a rule names the rule, with the generator untouched. -/
theorem selfCalling_find_some {s : Nat} {label : String} {tw tw' : Twister} {i : Nat}
    (h : (selfCalling name maxDepth).find s label tw = (some i, tw')) : i = 1 := by
  rcases selfCalling_find s label tw with h1 | h1
  · rw [h1] at h
    cases h
  · rw [h1] at h
    cases h
    rfl

/-- From the top level or the rule, the rule's name names the rule. -/
theorem selfCalling_find_name {s : Nat} (hs : s ≤ 1) (tw : Twister) :
    (selfCalling name maxDepth).find s name tw = (some 1, tw) := by
  match s, hs with
  | 0, _ => simp [find, candidates, scopes, scopesFrom, Rule.childrenNamed, selfCallingTop]
  | 1, _ => simp [find, candidates, scopes, scopesFrom, Rule.childrenNamed, selfCallingTop,
      selfCallingRule]

end SelfCalling

end Grammar

namespace InPlace

variable {σ : Type}

/-- The entries that walk the body of a rule named `n`. -/
def walksNamed (n : String) (es : List Entry) : Nat :=
  es.countP fun
    | .rule r w => w && n == r.name
    | .scope _ => false

@[simp] theorem walksNamed_nil (n : String) : walksNamed n [] = 0 := rfl

@[simp] theorem walksNamed_rule (n : String) (r : Rule) (w : Bool) (es : List Entry) :
    walksNamed n (.rule r w :: es) = walksNamed n es + if w = true ∧ n = r.name then 1 else 0 := by
  simp only [walksNamed, List.countP_cons, Bool.and_eq_true, beq_iff_eq]

@[simp] theorem walksNamed_scope (n : String) (s : Rule) (es : List Entry) :
    walksNamed n (.scope s :: es) = walksNamed n es := by
  simp [walksNamed]

section SelfCalling

variable {name : String} {maxDepth : Option Int} {set : Settings} {vars : Variables}
  {obs : Observer σ}

/-- What holds at each call of a build of `selfCalling name maxDepth` with depth limit
`D`, for the walks of the rule's body on the path to it, `w`: the top level is counted
once, and every descent into the rule once more, so that the top level is `w + 1` deep
outside the rule and `w + 2` at the rule's entry; the rule's name is `w` deep; and `w`
is at most the depth in closed form. The one other call of a rule is the start. -/
def SelfCalled (name : String) (maxDepth : Option Int) (D : Int) (es : List Entry) :
    Call σ → Prop
  | .rule _ st i _ =>
    (i = 0 ∧ walksNamed name es = 0 ∧ ∀ n, st.depths.get n = 0) ∨
    (i = 1 ∧ st.depths.get Rule.rootName = walksNamed name es + 2 ∧
      st.depths.get name = walksNamed name es ∧ walksNamed name es + 2 ≤ D ∧
      walksNamed name es ≤ max 0 (min (maxDepth.getD D) (D - 1)))
  | c => c.status.depths.get Rule.rootName = walksNamed name es + 1 ∧
    c.status.depths.get name = walksNamed name es ∧
    walksNamed name es ≤ max 0 (min (maxDepth.getD D) (D - 1))

/-- Whatever bound holds at a call holds of the walks on its path. -/
theorem SelfCalled.walks_le {D : Int} {es : List Entry} {c : Call σ}
    (h : SelfCalled name maxDepth D es c) :
    walksNamed name es ≤ max 0 (min (maxDepth.getD D) (D - 1)) := by
  cases c with
  | rule fuel st i fb =>
    rcases h with ⟨-, hw, -⟩ | ⟨-, -, -, -, hK⟩
    · rw [hw]
      omega
    · exact hK
  | body => exact h.2.2
  | chain => exact h.2.2
  | repeated => exact h.2.2
  | reference => exact h.2.2
  | place => exact h.2.2

/-- A call that counts nothing keeps what holds of the build: the status it passes on
has the depths it was given. -/
theorem SelfCalled.of_none {sc : Scene} {D : Int} {es : List Entry} {c c' : Call σ}
    (hinv : SelfCalled name maxDepth D es c) (h : Calls sc obs c none c') :
    SelfCalled name maxDepth D es c' := by
  cases h with
  | head => simpa [SelfCalled] using hinv
  | next h => rw [chain_keeps_status h]; simpa [SelfCalled] using hinv
  | target => simpa [SelfCalled] using hinv
  | block => simpa [SelfCalled] using hinv
  | rest => simpa [SelfCalled] using hinv
  | again _ h => rw [chain_keeps_status h]; simpa [SelfCalled] using hinv
  | alone => simpa [SelfCalled] using hinv
  | place => simpa [SelfCalled] using hinv

/-- Each call of a build of `selfCalling` keeps what holds of it. Entering the top level
or the rule counts it and, past the rule's own limit, stops; a reference descends into
the rule, counting the top level, only while the top level is within the settings'
limit. -/
theorem SelfCalled.step (hname : name ≠ Rule.rootName) {es : List Entry} {c c' : Call σ}
    {e : Option Entry} (hinv : SelfCalled name maxDepth set.maxDepth es c)
    (h : Calls (Scene.of (Grammar.selfCalling name maxDepth) set vars) obs c e c') :
    SelfCalled name maxDepth set.maxDepth (e.toList ++ es) c' := by
  cases e with
  | none => simpa using hinv.of_none h
  | some e =>
    cases h with
    | @body fuel st i fb r hr _ hle =>
      rcases hinv with ⟨rfl, hw, hz⟩ | ⟨rfl, hroot, hself, hD, hK⟩
      · -- the start enters the top level
        simp only [Scene.grammar_of, Grammar.selfCalling_rule?_zero, Option.some.injEq] at hr
        subst hr
        simp only [SelfCalled, Option.toList_some, List.cons_append, List.nil_append,
          walksNamed_rule, hw, Call.status_body, Status.depths_pushRule, Depths.get_bump, hz,
          Grammar.name_selfCallingTop, hname, and_false, ↓reduceIte]
        omega
      · -- the rule enters itself, within its own limit
        simp only [Scene.grammar_of, Grammar.selfCalling_rule?_one, Option.some.injEq] at hr
        subst hr
        simp only [Scene.limitOf, Scene.settings_of, Status.depths_pushRule, Depths.get_bump,
          Grammar.name_selfCallingRule, Grammar.maxDepth_selfCallingRule, ↓reduceIte, hself] at hle
        simp only [SelfCalled, Option.toList_some, List.cons_append, List.nil_append,
          walksNamed_rule, Call.status_body, Status.depths_pushRule, Depths.get_bump, hroot,
          hself, Grammar.name_selfCallingRule, Ne.symm hname, and_self, ↓reduceIte]
        omega
    | fallback hr _ _ hfb =>
      rw [Grammar.selfCalling_fallback hr] at hfb
      cases hfb
    | @descend fuel st ref i tw s hfind hs hle =>
      obtain ⟨hroot, hself, hK⟩ := hinv
      -- the reference names the rule, whose scope is the top level
      obtain rfl : i = 1 := Grammar.selfCalling_find_some hfind
      have hparent : (Grammar.selfCallingRule name maxDepth).parent = some 0 := rfl
      simp only [Scene.grammar_of, Grammar.selfCalling_rule?_one, Option.bind_some, hparent,
        Grammar.selfCalling_rule?_zero, Option.some.injEq] at hs
      subst hs
      simp only [Scene.limitOf, Scene.settings_of, Grammar.name_selfCallingTop,
        Grammar.maxDepth_selfCallingTop, Option.getD_none, Depths.get_bump, ↓reduceIte,
        Call.status_reference] at hle hroot hself
      right
      simp only [Option.toList_some, List.cons_append, List.nil_append, walksNamed_scope,
        Depths.get_bump, Grammar.name_selfCallingTop, hname, ↓reduceIte]
      exact ⟨trivial, by omega, by omega, by omega, hK⟩

/-- Every call of a build of `selfCalling` keeps what holds of it. -/
theorem SelfCalled.reaches (hname : name ≠ Rule.rootName) {init : σ} {seed : Int}
    {es : List Entry} {c : Call σ}
    (h : Reaches (Scene.of (Grammar.selfCalling name maxDepth) set vars) obs
      (Call.start (Scene.of (Grammar.selfCalling name maxDepth) set vars) init seed) es c) :
    SelfCalled name maxDepth set.maxDepth es c := by
  induction h with
  | refl => exact .inl ⟨rfl, rfl, fun _ => rfl⟩
  | tail _ hstep ih => exact ih.step hname hstep

/-- From a body that calls the rule, at fuel `f + 1` and within both limits, the walk
reaches the rule's body: one walk more, the top level and the rule's name one deeper. -/
theorem reaches_deeper (hname : name ≠ Rule.rootName) {c₀ : Call σ} {es : List Entry}
    {f : Nat} {st : Status σ}
    (hreach : Reaches (Scene.of (Grammar.selfCalling name maxDepth) set vars) obs c₀ es
      (.body (f + 1) st (Grammar.callOf name)))
    (hrule : st.rule ≤ 1) (hD : st.depths.get Rule.rootName + 1 ≤ set.maxDepth)
    (hm : st.depths.get name + 1 ≤ maxDepth.getD set.maxDepth) :
    ∃ es' st', Reaches (Scene.of (Grammar.selfCalling name maxDepth) set vars) obs c₀ es'
        (.body f st' (Grammar.callOf name)) ∧
      walksNamed name es' = walksNamed name es + 1 ∧ st'.rule = 1 ∧
      st'.depths.get Rule.rootName = st.depths.get Rule.rootName + 1 ∧
      st'.depths.get name = st.depths.get name + 1 := by
  have hchain := hreach.next Calls.head
  have href := hchain.next Calls.target
  have hfind := @Grammar.selfCalling_find_name name maxDepth st.rule hrule st.progress.twister
  -- the reference descends into the rule, counting the top level
  have hrule' := href.enter (Calls.descend (s := Grammar.selfCallingTop name) hfind rfl
    (by simpa [Scene.limitOf] using hD))
  -- and the rule, within its own limit, walks its body
  have hbody := hrule'.enter (Calls.body (r := Grammar.selfCallingRule name maxDepth) rfl rfl
    (by simpa [Scene.limitOf, hname] using hm))
  refine ⟨_, _, hbody, ?_, rfl, ?_, ?_⟩
  · simp
  · simp [Ne.symm hname]
  · simp [hname]

/-- The start of a build of `selfCalling` walks the top level's body, when the settings'
limit lets the top level be walked at all. -/
theorem reaches_top_body (init : σ) (seed : Int) (hD : 1 ≤ set.maxDepth) :
    Reaches (Scene.of (Grammar.selfCalling name maxDepth) set vars) obs
      (Call.start (Scene.of (Grammar.selfCalling name maxDepth) set vars) init seed)
      [.rule (Grammar.selfCallingTop name) true]
      (.body (Walk.fuelFor (Scene.of (Grammar.selfCalling name maxDepth) set vars) - 1)
        ((Status.ofFrame Walk.start (Walk.begin init seed)).pushRule 0 Rule.rootName)
        (Grammar.callOf name)) := by
  have hfuel : Walk.fuelFor (Scene.of (Grammar.selfCalling name maxDepth) set vars) =
      (Walk.fuelFor (Scene.of (Grammar.selfCalling name maxDepth) set vars) - 1) + 1 := by
    rw [Walk.fuelFor]
    omega
  rw [Call.start, hfuel]
  exact Reaches.refl.enter (Calls.body rfl rfl
    (by simp [Scene.limitOf, Walk.start, Status.ofFrame]; omega))

/-- **The walk of `selfCalling` reaches the closed-form depth**: some call of its build
has the rule's body walked `max 0 (min m (D - 1))` times on its path, `m` the rule's
limit and `D` the settings'. -/
theorem SelfCalled.deepest_reached (hname : name ≠ Rule.rootName) (init : σ) (seed : Int) :
    ∃ es c, Reaches (Scene.of (Grammar.selfCalling name maxDepth) set vars) obs
        (Call.start (Scene.of (Grammar.selfCalling name maxDepth) set vars) init seed) es c ∧
      (walksNamed name es : Int) = max 0 (min (maxDepth.getD set.maxDepth) (set.maxDepth - 1)) := by
  let sc := Scene.of (Grammar.selfCalling name maxDepth) set vars
  let K := max 0 (min (maxDepth.getD set.maxDepth) (set.maxDepth - 1))
  by_cases hK : K = 0
  · exact ⟨[], _, .refl, by rw [walksNamed_nil]; exact hK.symm⟩
  -- the fuel outlasts the depth
  have hF : K.toNat + 2 ≤ Walk.fuelFor sc := by
    have hdeep := Walk.maxDepth_le_deepest sc
    have hset : sc.settings = set := rfl
    have hsize : sc.grammar.size = 2 := rfl
    rw [hset] at hdeep
    rw [Walk.fuelFor, hsize]
    omega
  -- the start walks the top level's body
  have hstart : Reaches sc obs (Call.start sc init seed) _ _ :=
    reaches_top_body init seed (show 1 ≤ set.maxDepth by omega)
  -- then each level reaches the next
  have hlevel : ∀ j, j ≤ K.toNat → ∃ es st, Reaches sc obs (Call.start sc init seed) es
      (.body (Walk.fuelFor sc - 1 - j) st (Grammar.callOf name)) ∧ walksNamed name es = j ∧
      st.rule ≤ 1 ∧ st.depths.get Rule.rootName = j + 1 ∧ st.depths.get name = j := by
    intro j
    induction j with
    | zero =>
      intro _
      refine ⟨_, _, hstart, ?_, ?_, ?_, ?_⟩ <;>
        simp [Walk.start, Status.ofFrame, hname]
    | succ j ih =>
      intro hj
      obtain ⟨es, st, hreach, hw, hrule, hroot, hself⟩ := ih (by omega)
      have hfuel : Walk.fuelFor sc - 1 - j = (Walk.fuelFor sc - 1 - (j + 1)) + 1 := by omega
      rw [hfuel] at hreach
      obtain ⟨es', st', hreach', hw', hrule', hroot', hself'⟩ :=
        reaches_deeper hname hreach (by omega) (by omega) (by omega)
      exact ⟨es', st', hreach', by omega, by omega, by omega, by omega⟩
  obtain ⟨es, st, hreach, hw, -⟩ := hlevel K.toNat (Nat.le_refl _)
  exact ⟨es, _, hreach, by omega⟩

/-- **A rule that calls itself from the top level is walked `max 0 (min m (D - 1))` deep.**
In a build of `selfCalling name maxDepth` under the settings' depth limit `D`, with `m`
the rule's own limit or else `D`, no path of calls walks the rule's body more often than
that, and some path walks it exactly that often: the top level takes one level of `D`,
and each walk of the rule one more level of `D` and one of `m`. -/
theorem selfCalling_depth (hname : name ≠ Rule.rootName) (init : σ) (seed : Int) :
    (∃ es c, Reaches (Scene.of (Grammar.selfCalling name maxDepth) set vars) obs
        (Call.start (Scene.of (Grammar.selfCalling name maxDepth) set vars) init seed) es c ∧
      (walksNamed name es : Int) = max 0 (min (maxDepth.getD set.maxDepth) (set.maxDepth - 1))) ∧
    ∀ es c, Reaches (Scene.of (Grammar.selfCalling name maxDepth) set vars) obs
        (Call.start (Scene.of (Grammar.selfCalling name maxDepth) set vars) init seed) es c →
      (walksNamed name es : Int) ≤ max 0 (min (maxDepth.getD set.maxDepth) (set.maxDepth - 1)) :=
  ⟨SelfCalled.deepest_reached hname init seed,
    fun _ _ h => (SelfCalled.reaches hname h).walks_le⟩

end SelfCalling

/-- **Depth counters count the active frames.** At every call of a build, the observer's
included, the counter of a name is the number of rules of that name entered on the path to
the call, walked or past their limit and the root included, plus the number of references
on it that descended into a child of a scope of that name. So a rule's body is walked only
while that count for its name, its own entry included, is within the rule's limit; a
reference descends only while the count for its rule's scope is within the scope's limit;
and every counter is zero again when the build ends. For a top-level rule that calls
itself, the depth of the walk is `max 0 (min m (D - 1))`. -/
theorem depths_count_active_frames (sc : Scene) (obs : Observer σ) (init : σ) (seed : Int) :
    (∀ es c, Reaches sc obs (Call.start sc init seed) es c →
      ∀ n, c.status.depths.get n = rulesNamed n es + scopesNamed n es) ∧
    (∀ es fuel st i fb r c, Reaches sc obs (Call.start sc init seed) es (.rule fuel st i fb) →
      Calls sc obs (.rule fuel st i fb) (some (.rule r true)) c →
      rulesNamed r.name (.rule r true :: es) + scopesNamed r.name (.rule r true :: es)
        ≤ sc.limitOf r) ∧
    (∀ es fuel st ref s c, Reaches sc obs (Call.start sc init seed) es (.reference fuel st ref) →
      Calls sc obs (.reference fuel st ref) (some (.scope s)) c →
      rulesNamed s.name (.scope s :: es) + scopesNamed s.name (.scope s :: es) ≤ sc.limitOf s) ∧
    (∀ f st, rule sc obs (Walk.fuelFor sc) (Status.ofFrame Walk.start (Walk.begin init seed)) 0 true
      = .ok (f, st) → ∀ n, st.depths.get n = 0) ∧
    (∀ name maxDepth set vars, name ≠ Rule.rootName →
      let sc' := Scene.of (Grammar.selfCalling name maxDepth) set vars
      (∃ es c, Reaches sc' obs (Call.start sc' init seed) es c ∧
        (walksNamed name es : Int) = max 0 (min (maxDepth.getD set.maxDepth) (set.maxDepth - 1))) ∧
      ∀ es c, Reaches sc' obs (Call.start sc' init seed) es c →
        (walksNamed name es : Int) ≤ max 0 (min (maxDepth.getD set.maxDepth) (set.maxDepth - 1))) := by
  refine ⟨?_, ?_, ?_, ?_, ?_⟩
  · intro es c h n
    simpa using h.depths_get n
  · intro es fuel st i fb r c h hstep
    simpa using h.body_within_limit hstep
  · intro es fuel st ref s c h hstep
    simpa using h.descend_within_limit hstep
  · intro f st h n
    exact depths_after_build h n
  · intro name maxDepth set vars hname
    exact selfCalling_depth hname init seed

end InPlace

end ShapeGrammar
