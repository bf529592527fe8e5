import ShapeGrammar.Proofs.Depths
/-!
# Fuel: every build ends before its fuel does

Every walk carries fuel, a rule at fuel zero is passed over, and a build starts with
`Walk.fuelFor`. This file shows that the fuel is never what ends a build: with more fuel
a build makes the very same walk, whatever the grammar and its limits, zero and negative
ones included, with rules that call themselves or each other, fallbacks that lead back,
and any counts of repeats. The walk is a finite tree.

The measure is the room left under the deepest limit (`Walk.room`): for each rule of the
grammar, how many more times its name can be counted before it passes `Walk.deepest`. A
rule walks its body only within its limit, so a body is walked with strictly less room;
a rule past its limit walks its fallback with no fallback of its own, so a fallback costs
one step of fuel and leads at most to one body; counting a scope never adds room; and a
chain is walked forward, block by block, so at one fuel a chain and a body are finite.
A rule with room `m` needs at most `2 * m + 2` fuel, and the start has room
`size * deepest`.
-/

namespace ShapeGrammar

namespace Walk

/-- The room left under the limit `deep` at depths `d` for the names of the rules `rs`:
how many more times they can be counted, rule by rule. -/
def roomOf (deep : Int) (d : Depths) : List Rule → Nat
  | [] => 0
  | r :: rs => (deep - d.get r.name).toNat + roomOf deep d rs

/-- Counting a name never adds room. -/
theorem roomOf_bump_le (deep : Int) (d : Depths) (name : String) :
    ∀ rs, roomOf deep (d.bump name) rs ≤ roomOf deep d rs
  | [] => Nat.le_refl 0
  | r :: rs => by
    have ih := roomOf_bump_le deep d name rs
    simp only [roomOf, Depths.get_bump]
    split <;> omega

/-- Counting the name of a rule below the limit takes room. -/
theorem roomOf_bump_lt (deep : Int) (d : Depths) {r : Rule} (hd : d.get r.name < deep) :
    ∀ {rs}, r ∈ rs → roomOf deep (d.bump r.name) rs < roomOf deep d rs
  | r' :: rs, h => by
    have hle := roomOf_bump_le deep d r.name rs
    simp only [roomOf, Depths.get_bump]
    rcases List.mem_cons.mp h with rfl | hmem
    · simp only [↓reduceIte]
      omega
    · have hlt := roomOf_bump_lt deep d hd hmem
      split <;> omega

theorem roomOf_zero (deep : Int) : ∀ rs, roomOf deep Depths.zero rs = rs.length * deep.toNat
  | [] => (Nat.zero_mul _).symm
  | r :: rs => by
    rw [roomOf, roomOf_zero deep rs, Depths.get_zero, Int.sub_zero, List.length_cons,
      Nat.succ_mul, Nat.add_comm]

/-- The room of a scene at depths `d`. -/
def room (sc : Scene) (d : Depths) : Nat := roomOf (deepest sc) d sc.grammar.rules.toList

/-- The fuel a rule needs at depths `d`: two steps for each unit of room, and two more
while it may still fall back, one once it may not. -/
def need (sc : Scene) (d : Depths) (fallback : Bool) : Nat :=
  2 * room sc d + if fallback then 2 else 1

theorem room_bump_le (sc : Scene) (d : Depths) (name : String) :
    room sc (d.bump name) ≤ room sc d :=
  roomOf_bump_le _ d name _

/-- A rule of the grammar walked within its limit leaves less room. -/
theorem room_bump_lt {sc : Scene} {d : Depths} {i : Nat} {r : Rule}
    (hr : sc.grammar.rule? i = some r) (hg : (d.bump r.name).get r.name ≤ sc.limitOf r) :
    room sc (d.bump r.name) < room sc d := by
  have hdeep := limitOf_le_deepest hr
  have hmem : r ∈ sc.grammar.rules.toList := Array.mem_toList_iff.mpr (Array.mem_of_getElem? hr)
  simp only [Depths.get_bump, ↓reduceIte] at hg
  exact roomOf_bump_lt _ d (by omega) hmem

/-- The start of a build has all the fuel it needs. -/
theorem need_zero_le_fuelFor (sc : Scene) : need sc Depths.zero true ≤ fuelFor sc := by
  have hroom : room sc Depths.zero = sc.grammar.size * deepest sc := by
    rw [room, roomOf_zero, Array.length_toList, Int.toNat_natCast]
    rfl
  simp only [need, hroom, ↓reduceIte, fuelFor]
  rw [Nat.mul_add, Nat.mul_one, Nat.mul_assoc]
  omega

variable {σ : Type} {sc : Scene} {obs : Observer σ} {n : Nat}

/-- A reference with room is walked alike with more fuel when the rules at its fuel are:
counting the rule's scope takes no room. -/
theorem reference_more_fuel
    (hrule : ∀ (fr : Frame) i fb (p : Progress σ), need sc fr.depths fb ≤ n → ∀ k,
      rule sc obs (n + k) fr i fb p = rule sc obs n fr i fb p) :
    ∀ (fr : Frame) (ref : Reference) (p : Progress σ), 2 * room sc fr.depths + 2 ≤ n → ∀ k,
      reference sc obs (n + k) fr ref p = reference sc obs n fr ref p := by
  intro fr ref p hroom k
  rw [reference, reference]
  rcases sc.grammar.find fr.rule ref.label p.twister with ⟨_ | i, tw⟩
  · rfl
  · dsimp only
    cases (sc.grammar.rule? i).bind fun r => r.parent.bind sc.grammar.rule? with
    | none => rfl
    | some s =>
      dsimp only
      have hneed : need sc (fr.depths.bump s.name) true ≤ n := by
        have := room_bump_le sc fr.depths s.name
        simp only [need, ↓reduceIte]
        omega
      rw [hrule { fr with depths := fr.depths.bump s.name } i true { p with twister := tw } hneed k]

/-- Repeats of a block are walked alike with more fuel when the rest of the chain is: a
block changes the transform and the paint, not the depths. -/
theorem repeated_more_fuel {bs : List Block} {target : Option Reference}
    (hchain : ∀ (fr : Frame) (p : Progress σ), 2 * room sc fr.depths + 2 ≤ n → ∀ k,
      chain sc obs (n + k) fr bs target p = chain sc obs n fr bs target p) (d : Delta) :
    ∀ (count : Nat) (fr : Frame) (last : Flow) (p : Progress σ), 2 * room sc fr.depths + 2 ≤ n →
      ∀ k, repeated sc obs (n + k) fr d bs target count last p =
        repeated sc obs n fr d bs target count last p := by
  intro count
  induction count with
  | zero => intro fr last p _ k; rw [repeated, repeated]
  | succ count ih =>
    intro fr last p hroom k
    rw [repeated, repeated]
    dsimp only
    rw [hchain ⟨(d.apply fr.transform fr.paint).1, (d.apply fr.transform fr.paint).2, fr.rule,
      fr.depths⟩ p hroom k]
    cases chain sc obs n ⟨(d.apply fr.transform fr.paint).1, (d.apply fr.transform fr.paint).2,
        fr.rule, fr.depths⟩ bs target p with
    | error f => rfl
    | ok r =>
      obtain ⟨flow, p'⟩ := r
      cases flow with
      | stop => rfl
      | more => dsimp only; exact ih _ _ p' (by exact hroom) k
      | cut => dsimp only; exact ih _ _ p' (by exact hroom) k

/-- A chain with room is walked alike with more fuel when the references at its fuel are. -/
theorem chain_more_fuel
    (href : ∀ (fr : Frame) ref (p : Progress σ), 2 * room sc fr.depths + 2 ≤ n → ∀ k,
      reference sc obs (n + k) fr ref p = reference sc obs n fr ref p) :
    ∀ (bs : List Block) (fr : Frame) (target : Option Reference) (p : Progress σ),
      2 * room sc fr.depths + 2 ≤ n → ∀ k,
        chain sc obs (n + k) fr bs target p = chain sc obs n fr bs target p := by
  intro bs
  induction bs with
  | nil =>
    intro fr target p hroom k
    cases target with
    | none => rw [chain, chain]
    | some ref => rw [chain, chain, href fr ref p hroom k]
  | cons b rest ih =>
    intro fr target p hroom k
    rw [chain, chain]
    cases sc.deltaOf b with
    | error f => rfl
    | ok d =>
      dsimp only
      split
      · rfl
      · exact repeated_more_fuel (fun fr p h k => ih fr target p h k) d b.count fr .more p hroom k

/-- A body with room is walked alike with more fuel when the chains at its fuel are. -/
theorem body_more_fuel
    (hchain : ∀ bs (fr : Frame) target (p : Progress σ), 2 * room sc fr.depths + 2 ≤ n → ∀ k,
      chain sc obs (n + k) fr bs target p = chain sc obs n fr bs target p) :
    ∀ (cs : List Chain) (fr : Frame) (p : Progress σ), 2 * room sc fr.depths + 2 ≤ n → ∀ k,
      body sc obs (n + k) fr cs p = body sc obs n fr cs p := by
  intro cs
  induction cs with
  | nil => intro fr p _ k; rw [body, body]
  | cons c rest ih =>
    intro fr p hroom k
    rw [body, body, hchain c.blocks fr c.target p hroom k]
    cases chain sc obs n fr c.blocks c.target p with
    | error f => rfl
    | ok r =>
      obtain ⟨flow, p'⟩ := r
      cases flow with
      | more => exact ih fr p' hroom k
      | cut => rfl
      | stop => rfl

/-- A rule at fuel `n + 1` with the fuel it needs is walked alike with more fuel when the
bodies and rules at fuel `n` are: its body is walked with less room, and its fallback
with no fallback of its own. -/
theorem rule_succ_more_fuel
    (hbody : ∀ cs (fr : Frame) (p : Progress σ), 2 * room sc fr.depths + 2 ≤ n → ∀ k,
      body sc obs (n + k) fr cs p = body sc obs n fr cs p)
    (hrule : ∀ (fr : Frame) i fb (p : Progress σ), need sc fr.depths fb ≤ n → ∀ k,
      rule sc obs (n + k) fr i fb p = rule sc obs n fr i fb p)
    {fr : Frame} {fb : Bool} (hneed : need sc fr.depths fb ≤ n + 1) (i : Nat) (p : Progress σ)
    (k : Nat) : rule sc obs (n + 1 + k) fr i fb p = rule sc obs (n + 1) fr i fb p := by
  rw [Nat.add_right_comm, rule, rule]
  cases hr : sc.grammar.rule? i with
  | none => rfl
  | some r =>
    dsimp only
    split
    · rfl
    · split
      · -- within the limit: the body is walked with less room
        rename_i hg
        have hlt := room_bump_lt hr hg
        have hroom : 2 * room sc (fr.depths.bump r.name) + 2 ≤ n := by
          simp only [need] at hneed
          split at hneed <;> omega
        rw [hbody r.body { fr with rule := i, depths := fr.depths.bump r.name } p hroom k]
      · cases fb with
        | false => rfl
        | true =>
          rw [if_pos rfl, if_pos rfl]
          cases r.fallback with
          | none => rfl
          | some label =>
            dsimp only
            cases sc.grammar.find i label p.twister with
            | mk found tw =>
              cases found with
              | none => rfl
              | some t =>
                -- past the limit: the fallback has no fallback of its own
                have hfall : need sc (fr.depths.bump r.name) false ≤ n := by
                  have := room_bump_le sc fr.depths r.name
                  simp only [need, Bool.false_eq_true, ↓reduceIte] at hneed ⊢
                  omega
                exact hrule { fr with rule := i, depths := fr.depths.bump r.name } t false
                  { p with twister := tw } hfall k

/-- **A rule with the fuel it needs is walked alike with any more fuel.** -/
theorem rule_more_fuel :
    ∀ (n : Nat) (fr : Frame) (i : Nat) (fb : Bool) (p : Progress σ), need sc fr.depths fb ≤ n →
      ∀ k, rule sc obs (n + k) fr i fb p = rule sc obs n fr i fb p := by
  intro n
  induction n with
  | zero =>
    intro fr i fb p hneed
    simp only [need] at hneed
    split at hneed <;> omega
  | succ n ih =>
    intro fr i fb p hneed k
    -- at fuel `n` a reference walks rules, a chain references, and a body chains
    exact rule_succ_more_fuel (body_more_fuel (chain_more_fuel (reference_more_fuel ih))) ih
      hneed i p k

end Walk

namespace InPlace

/-- **Every build ends before its fuel does.** The walk of a build, from the start with
the fuel `Walk.fuelFor`, is the walk with any more fuel: the same flow, the same
objects shown to the observer and the same status at the end. So the fuel never cuts
the walk short, and the walk that builds a structure is a finite tree, for every grammar,
every set of limits and every observer. -/
theorem build_ends_within_fuel {σ : Type} (sc : Scene) (obs : Observer σ) (init : σ) (seed : Int)
    (k : Nat) :
    rule sc obs (Walk.fuelFor sc + k) (Status.ofFrame Walk.start (Walk.begin init seed)) 0 true =
      rule sc obs (Walk.fuelFor sc) (Status.ofFrame Walk.start (Walk.begin init seed)) 0 true := by
  rw [rule_eq_walk, rule_eq_walk, Status.frame_ofFrame, Status.progress_ofFrame]
  have hneed : Walk.need sc Walk.start.depths true ≤ Walk.fuelFor sc := Walk.need_zero_le_fuelFor sc
  rw [Walk.rule_more_fuel _ Walk.start 0 true _ hneed k]

end InPlace

end ShapeGrammar
