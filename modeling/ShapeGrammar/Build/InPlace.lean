import ShapeGrammar.Build.Walk
/-!
# Walking with one status changed in place

`Build.Walk` passes each step the frame it works in and forgets what a sub-walk did to
it. The same walk can be kept on one `Status` that every step changes in place and
puts back before it returns:

* a transform block saves the transform, the paint and the rule (`Status.push`),
  applies its delta its count of times, and restores what it saved (`Status.pop`);
* a rule saves the rule it was entered from, becomes the current rule and counts its
  name one deeper (`Status.pushRule`); on leaving it counts the name of the current
  rule one back and restores the saved rule (`Status.popRule`);
* a reference to a rule counts the name of the rule's scope one deeper before it walks
  the rule, and one back after.

So the depth counters are only ever counted up and back, and the current rule is
whatever the saved frames left. `InPlace.rule` and its companions are that walk; the
theory of frames shows it ends every step with the status it started from, only the
progress changed, and that it places what `Walk.rule` places.
-/

namespace ShapeGrammar

/-- What a step saves before it changes the status: the transform and paint a block
changes, none for a rule, and the current rule. -/
structure Saved where
  transform : Option Transform
  paint : Option Paint
  rule : Nat

/-- The status of a walk kept in place: the current transform, paint, rule and depth
counters, the saved frames, innermost first, and the progress of the build. -/
structure Status (σ : Type) where
  transform : Transform
  paint : Paint
  rule : Nat
  depths : Depths
  saved : List Saved
  progress : Progress σ

namespace Status

variable {σ : Type}

/-- The frame of a status: what `Walk` passes down. -/
def frame (st : Status σ) : Frame := ⟨st.transform, st.paint, st.rule, st.depths⟩

/-- The status with another progress. -/
def withProgress (st : Status σ) (p : Progress σ) : Status σ := { st with progress := p }

/-- The status a walk starts from: the frame `fr`, nothing saved. -/
def ofFrame (fr : Frame) (p : Progress σ) : Status σ :=
  ⟨fr.transform, fr.paint, fr.rule, fr.depths, [], p⟩

/-- Save the transform, paint and rule. -/
def push (st : Status σ) : Status σ :=
  { st with saved := ⟨some st.transform, some st.paint, st.rule⟩ :: st.saved }

/-- Restore the last saved frame: its transform and paint where it kept them, and its
rule. With nothing saved the status is kept. -/
def pop (st : Status σ) : Status σ :=
  match st.saved with
  | s :: rest =>
    { st with transform := s.transform.getD st.transform, paint := s.paint.getD st.paint,
              rule := s.rule, saved := rest }
  | [] => st

/-- Enter rule `i` named `name`: save the current rule and count the name one deeper. -/
def pushRule (st : Status σ) (i : Nat) (name : String) : Status σ :=
  { st with saved := ⟨none, none, st.rule⟩ :: st.saved, rule := i, depths := st.depths.bump name }

/-- Leave the current rule: count its name one back and restore the saved frame. -/
def popRule (g : Grammar) (st : Status σ) : Status σ :=
  let name := ((g.rule? st.rule).map (·.name)).getD ""
  pop { st with depths := st.depths.drop name }

/-- Apply a delta to the transform and paint. -/
def apply (st : Status σ) (d : Delta) : Status σ :=
  { st with transform := (d.apply st.transform st.paint).1, paint := (d.apply st.transform st.paint).2 }

/-- The status after a step that ended with `r`: its flow, and this status with the
step's progress. -/
def after (st : Status σ) (r : Flow × Progress σ) : Flow × Status σ := (r.1, st.withProgress r.2)

@[simp] theorem transform_frame (st : Status σ) : st.frame.transform = st.transform := rfl

@[simp] theorem paint_frame (st : Status σ) : st.frame.paint = st.paint := rfl

@[simp] theorem rule_frame (st : Status σ) : st.frame.rule = st.rule := rfl

@[simp] theorem depths_frame (st : Status σ) : st.frame.depths = st.depths := rfl

@[simp] theorem frame_ofFrame (fr : Frame) (p : Progress σ) : (ofFrame fr p).frame = fr := rfl

@[simp] theorem progress_ofFrame (fr : Frame) (p : Progress σ) : (ofFrame fr p).progress = p := rfl

@[simp] theorem frame_withProgress (st : Status σ) (p : Progress σ) :
    (st.withProgress p).frame = st.frame := rfl

@[simp] theorem progress_withProgress (st : Status σ) (p : Progress σ) :
    (st.withProgress p).progress = p := rfl

@[simp] theorem withProgress_withProgress (st : Status σ) (p q : Progress σ) :
    (st.withProgress p).withProgress q = st.withProgress q := rfl

@[simp] theorem withProgress_progress (st : Status σ) : st.withProgress st.progress = st := rfl

@[simp] theorem after_withProgress (st : Status σ) (p : Progress σ) :
    (st.withProgress p).after = st.after := rfl

@[simp] theorem frame_push (st : Status σ) : st.push.frame = st.frame := rfl

@[simp] theorem progress_push (st : Status σ) : st.push.progress = st.progress := rfl

@[simp] theorem pop_push (st : Status σ) : st.push.pop = st := rfl

theorem frame_pushRule (st : Status σ) (i : Nat) (name : String) :
    (st.pushRule i name).frame = { st.frame with rule := i, depths := st.frame.depths.bump name } :=
  rfl

@[simp] theorem progress_pushRule (st : Status σ) (i : Nat) (name : String) :
    (st.pushRule i name).progress = st.progress := rfl

@[simp] theorem depths_pushRule (st : Status σ) (i : Nat) (name : String) :
    (st.pushRule i name).depths = st.depths.bump name := rfl

/-- Leaving a rule undoes entering it, whatever progress was made in between. -/
theorem popRule_pushRule {g : Grammar} {i : Nat} {r : Rule} (h : g.rule? i = some r)
    (st : Status σ) (p : Progress σ) :
    ((st.pushRule i r.name).withProgress p).popRule g = st.withProgress p := by
  simp [popRule, pushRule, withProgress, pop, h]

/-- Leaving a rule at once undoes entering it. -/
theorem popRule_pushRule_self {g : Grammar} {i : Nat} {r : Rule} (h : g.rule? i = some r)
    (st : Status σ) : (st.pushRule i r.name).popRule g = st :=
  popRule_pushRule h st st.progress

theorem frame_apply (st : Status σ) (d : Delta) :
    (st.apply d).frame =
      { st.frame with transform := (d.apply st.frame.transform st.frame.paint).1,
                      paint := (d.apply st.frame.transform st.frame.paint).2 } := rfl

@[simp] theorem progress_apply (st : Status σ) (d : Delta) : (st.apply d).progress = st.progress :=
  rfl

@[simp] theorem saved_apply (st : Status σ) (d : Delta) : (st.apply d).saved = st.saved := rfl

@[simp] theorem depths_withProgress (st : Status σ) (p : Progress σ) :
    (st.withProgress p).depths = st.depths := rfl

@[simp] theorem depths_push (st : Status σ) : st.push.depths = st.depths := rfl

@[simp] theorem depths_apply (st : Status σ) (d : Delta) : (st.apply d).depths = st.depths := rfl

@[simp] theorem rule_withProgress (st : Status σ) (p : Progress σ) :
    (st.withProgress p).rule = st.rule := rfl

@[simp] theorem rule_pushRule (st : Status σ) (i : Nat) (name : String) :
    (st.pushRule i name).rule = i := rfl

/-- Restoring a frame that saved the transform and paint forgets what they became. -/
theorem pop_apply {st : Status σ} {t : Transform} {c : Paint} {i : Nat} {rest : List Saved}
    (h : st.saved = ⟨some t, some c, i⟩ :: rest) (d : Delta) : (st.apply d).pop = st.pop := by
  simp [pop, apply, h]

@[simp] theorem saved_withProgress (st : Status σ) (p : Progress σ) :
    (st.withProgress p).saved = st.saved := rfl

@[simp] theorem progress_pop (st : Status σ) : st.pop.progress = st.progress := by
  unfold pop
  split <;> rfl

@[simp] theorem pop_withProgress (st : Status σ) (p : Progress σ) :
    (st.withProgress p).pop = st.pop.withProgress p := by
  unfold pop withProgress
  split <;> simp_all

end Status

namespace InPlace

variable {σ : Type}

mutual

/-- Walk rule `i` on the status. An empty body is passed over. Otherwise the rule is
entered; within its limit the body is walked, and a body cut short counts as done; past
it, the fallback, if allowed and given, is walked with no fallback of its own. The rule
is left in every case that does not fail. -/
def rule (sc : Scene) (obs : Observer σ) (fuel : Nat) (st : Status σ) (i : Nat) (fallback : Bool) :
    Except Fault (Flow × Status σ) :=
  match fuel with
  | 0 => .ok (.more, st)
  | fuel + 1 =>
    match sc.grammar.rule? i with
    | none => .ok (.more, st)
    | some r =>
      if r.body.isEmpty then .ok (.more, st) else
      let st := st.pushRule i r.name
      if st.depths.get r.name ≤ sc.limitOf r then
        match body sc obs fuel st r.body with
        | .ok (.cut, st) => .ok (.more, st.popRule sc.grammar)
        | .ok (flow, st) => .ok (flow, st.popRule sc.grammar)
        | .error f => .error f
      else if fallback then
        match r.fallback with
        | none => .ok (.more, st.popRule sc.grammar)
        | some label =>
          match sc.grammar.find i label st.progress.twister with
          | (none, _) => .error (.missingFallback label r.name)
          | (some t, tw) =>
            match rule sc obs fuel (st.withProgress { st.progress with twister := tw }) t false with
            | .ok (flow, st) => .ok (flow, st.popRule sc.grammar)
            | .error f => .error f
      else .ok (.more, st.popRule sc.grammar)
termination_by (fuel, 0, 0, 0)

/-- Walk the chains of a body in order while each says to go on. -/
def body (sc : Scene) (obs : Observer σ) (fuel : Nat) (st : Status σ) (cs : List Chain) :
    Except Fault (Flow × Status σ) :=
  match cs with
  | [] => .ok (.more, st)
  | c :: rest =>
    match chain sc obs fuel st c.blocks c.target with
    | .ok (.more, st) => body sc obs fuel st rest
    | other => other
termination_by (fuel, 3, cs.length, 0)

/-- Walk a chain: its first block saves the status, is applied its count of times with
the rest of the chain walked after each application, and restores the status. -/
def chain (sc : Scene) (obs : Observer σ) (fuel : Nat) (st : Status σ) (bs : List Block)
    (target : Option Reference) : Except Fault (Flow × Status σ) :=
  match bs with
  | [] =>
    match target with
    | none => .ok (.more, st)
    | some ref => reference sc obs fuel st ref
  | b :: rest =>
    match sc.deltaOf b with
    | .error f => .error f
    | .ok d =>
      match repeated sc obs fuel st.push d rest target b.count .more with
      | .ok (flow, st) => .ok (flow, st.pop)
      | .error f => .error f
termination_by (fuel, 2, 2 * bs.length, 0)

/-- Apply `d` and walk the rest of the chain, `n` more times, until the build stops; a
block with nothing after it is only applied. `last` is the flow of the last walk. -/
def repeated (sc : Scene) (obs : Observer σ) (fuel : Nat) (st : Status σ) (d : Delta)
    (bs : List Block) (target : Option Reference) (n : Nat) (last : Flow) :
    Except Fault (Flow × Status σ) :=
  match n with
  | 0 => .ok (last, st)
  | n + 1 =>
    let st := st.apply d
    if bs.isEmpty && target.isNone then repeated sc obs fuel st d bs target n last
    else
      match chain sc obs fuel st bs target with
      | .ok (.stop, st) => .ok (.stop, st)
      | .ok (flow, st) => repeated sc obs fuel st d bs target n flow
      | .error f => .error f
termination_by (fuel, 2, 2 * bs.length + 1, n)

/-- Walk a reference: the rule it names, its scope counted one deeper while the rule is
walked if the scope's limit allows, or else the object it places. -/
def reference (sc : Scene) (obs : Observer σ) (fuel : Nat) (st : Status σ) (ref : Reference) :
    Except Fault (Flow × Status σ) :=
  match sc.grammar.find st.rule ref.label st.progress.twister with
  | (none, tw) =>
    match Walk.place sc obs st.frame ref { st.progress with twister := tw } with
    | .ok (flow, p) => .ok (flow, st.withProgress p)
    | .error f => .error f
  | (some i, tw) =>
    let st := st.withProgress { st.progress with twister := tw }
    match (sc.grammar.rule? i).bind fun r => r.parent.bind sc.grammar.rule? with
    | none => .ok (.more, st)
    | some s =>
      let st := { st with depths := st.depths.bump s.name }
      if st.depths.get s.name ≤ sc.limitOf s then
        match rule sc obs fuel st i true with
        | .ok (.stop, st) => .ok (.stop, { st with depths := st.depths.drop s.name })
        | .ok (_, st) => .ok (.more, { st with depths := st.depths.drop s.name })
        | .error f => .error f
      else .ok (.more, { st with depths := st.depths.drop s.name })
termination_by (fuel, 1, 0, 0)

end

/-- Walk the whole grammar in place from the root, from the start frame with nothing saved,
with the generator seeded by `seed`. -/
def run (sc : Scene) (obs : Observer σ) (init : σ) (seed : Int) : Except Fault (Progress σ) :=
  (rule sc obs (Walk.fuelFor sc) (Status.ofFrame Walk.start (Walk.begin init seed)) 0 true).map
    (·.2.progress)

end InPlace

end ShapeGrammar
