import ShapeGrammar.Delta.Read
import ShapeGrammar.Proofs.Volume
/-!
# Every operator text makes one edit

Reading the commands of an operator text onto a delta composes transforms onto its transform
and writes its paint and some channels of its shift, of its blend target and of its blend
ratio. What is composed and what is written comes from the words alone, never from the delta
the reading starts from: an operator text makes one `Delta.Edit` of whatever delta it is read
onto (`Delta.readOnto_makes_edit`).

An edit lists the transforms it composes, in the order of the geometry commands that give them,
and the paint and channels it writes. Colour commands compose no transform, geometry commands
write nothing. `Delta.Edit.andThen` makes one edit of two: the transforms of both, in order,
and for the paint and each channel the later write (`Delta.Edit.apply_andThen`).

The proof follows the reader: `Delta.MakesEdit` says of a reading that starts from a delta that
it makes one edit of it, and is proved command by command; the only command that looks at the
delta it starts from is a blend, which keeps the old target's alpha only to write over it.
Every transform an edit composes is built by a constructor, so its bottom row is `0 0 0 1`
(`Delta.Edit.Affine`), and the transform an operator text reads is a chain of affine factors
composed onto the identity (`Delta.read_transform_chain`).
-/

namespace ShapeGrammar

namespace Delta

/-- The channels of a colour that are written, with the values written. -/
structure Writes where
  h : Option Float
  s : Option Float
  b : Option Float
  a : Option Float

namespace Writes

/-- Writing no channel. -/
def empty : Writes := ⟨none, none, none, none⟩

/-- Some channel is written. -/
def any (w : Writes) : Bool := w.h.isSome || w.s.isSome || w.b.isSome || w.a.isSome

/-- The colour with the written channels replaced. -/
def overwrite (w : Writes) (c : Hsba) : Hsba := ⟨w.h.getD c.h, w.s.getD c.s, w.b.getD c.b, w.a.getD c.a⟩

/-- The writes of `w₁` and then of `w₂`: the later write of each channel. -/
def andThen (w₁ w₂ : Writes) : Writes := ⟨w₂.h.or w₁.h, w₂.s.or w₁.s, w₂.b.or w₁.b, w₂.a.or w₁.a⟩

/-- Writing the channel that `Hsba.withChannel` names `ch`. -/
def channel (ch : String) (x : Float) : Writes :=
  if ch == "h" then ⟨some x, none, none, none⟩
  else if ch == "s" then ⟨none, some x, none, none⟩
  else ⟨none, none, some x, none⟩

@[simp] theorem overwrite_empty (c : Hsba) : empty.overwrite c = c := rfl

@[simp] theorem any_empty : empty.any = false := rfl

theorem overwrite_andThen (w₁ w₂ : Writes) (c : Hsba) : (w₁.andThen w₂).overwrite c = w₂.overwrite (w₁.overwrite c) := by
  simp only [overwrite, andThen, Option.getD_or]

theorem any_andThen (w₁ w₂ : Writes) : (w₁.andThen w₂).any = (w₁.any || w₂.any) := by
  simp only [any, andThen, Option.isSome_or]
  -- the same eight flags, or-ed in another order
  ac_rfl

/-- Writes that write no channel are no writes. -/
theorem eq_empty_of_not_any {w : Writes} (h : w.any = false) : w = empty := by
  simp only [any, Bool.or_eq_false_iff, Option.isSome_eq_false_iff, Option.isNone_iff_eq_none] at h
  obtain ⟨⟨⟨hh, hs⟩, hb⟩, ha⟩ := h
  cases w
  simp only at hh hs hb ha
  rw [hh, hs, hb, ha]
  rfl

/-- Writes after which nothing is written are the writes themselves. -/
theorem andThen_of_not_any {w₂ : Writes} (h : w₂.any = false) (w₁ : Writes) : w₁.andThen w₂ = w₁ := by
  rw [eq_empty_of_not_any h]
  rfl

theorem overwrite_of_not_any {w : Writes} (h : w.any = false) (c : Hsba) : w.overwrite c = c := by
  rw [eq_empty_of_not_any h]
  rfl

theorem overwrite_channel (ch : String) (x : Float) (c : Hsba) :
    (channel ch x).overwrite c = Hsba.withChannel c ch x := by
  unfold channel Hsba.withChannel
  split
  · rfl
  · split <;> rfl

/-- The writes with the alpha channel written as well. -/
def withAlpha (w : Writes) (x : Float) : Writes := { w with a := some x }

theorem overwrite_withAlpha_channel (ch : String) (x y : Float) (c : Hsba) :
    ((channel ch x).withAlpha y).overwrite c = Hsba.withChannel { c with a := y } ch x := by
  unfold channel withAlpha Hsba.withChannel
  split
  · rfl
  · split <;> rfl

end Writes

/-- What reading commands does to a delta: the transforms it composes onto the delta's
transform, in order, and the paint and the channels of the shift, blend target and blend
ratio that it writes. -/
structure Edit where
  factors : List Transform
  paint : Option Paint
  shift : Writes
  target : Writes
  ratio : Writes

namespace Edit

/-- The edit that changes nothing. -/
def empty : Edit := ⟨[], none, .empty, .empty, .empty⟩

/-- The delta edited. A shift written for the first time starts from no turn and no scaling,
as a shift command does. -/
def apply (e : Edit) (d : Delta) : Delta :=
  { d with
    transform := e.factors.foldl (· * ·) d.transform
    paint := e.paint.or d.paint
    shift := if e.shift.any then some (e.shift.overwrite (d.shift.getD ⟨0.0, 1.0, 1.0, 1.0⟩)) else d.shift
    target := e.target.overwrite d.target
    ratio := e.ratio.overwrite d.ratio }

/-- One edit and then another: the transforms of both, in order, and the later write of the
paint and of each channel. -/
def andThen (e₁ e₂ : Edit) : Edit :=
  ⟨e₁.factors ++ e₂.factors, e₂.paint.or e₁.paint, e₁.shift.andThen e₂.shift,
    e₁.target.andThen e₂.target, e₁.ratio.andThen e₂.ratio⟩

@[simp] theorem apply_empty (d : Delta) : empty.apply d = d := rfl

/-- The shift after two edits: the later writes start from the earlier ones, and from the
delta's own shift when neither writes. -/
theorem shift_apply_andThen (e₁ e₂ : Edit) (d : Delta) :
    ((e₁.andThen e₂).apply d).shift = (e₂.apply (e₁.apply d)).shift := by
  simp only [apply, andThen]
  cases h₂ : e₂.shift.any with
  | false => simp [Writes.andThen_of_not_any h₂]
  | true =>
    cases h₁ : e₁.shift.any with
    | false => simp [Writes.any_andThen, h₁, h₂, Writes.overwrite_andThen, Writes.overwrite_of_not_any h₁]
    | true => simp [Writes.any_andThen, h₁, h₂, Writes.overwrite_andThen]

/-- **Editing twice is editing once with the edits one after the other.** -/
theorem apply_andThen (e₁ e₂ : Edit) (d : Delta) :
    (e₁.andThen e₂).apply d = e₂.apply (e₁.apply d) := by
  have hshift := shift_apply_andThen e₁ e₂ d
  simp only [apply, andThen] at hshift ⊢
  rw [hshift, List.foldl_append, Option.or_assoc, Writes.overwrite_andThen, Writes.overwrite_andThen]

/-- Every transform the edit composes has the bottom row `0 0 0 1`. -/
def Affine (e : Edit) : Prop := ∀ t ∈ e.factors, t.Affine

/-- An edit that composes no transform. -/
theorem affine_of_nil {p : Option Paint} {s t r : Writes} : (⟨[], p, s, t, r⟩ : Edit).Affine :=
  fun _ h => nomatch h

theorem affine_single {t : Transform} (ht : t.Affine) {p : Option Paint} {s u r : Writes} :
    (⟨[t], p, s, u, r⟩ : Edit).Affine := by
  intro t' h
  rw [List.mem_singleton.1 h]
  exact ht

theorem Affine.andThen {e₁ e₂ : Edit} (h₁ : e₁.Affine) (h₂ : e₂.Affine) : (e₁.andThen e₂).Affine := by
  intro t ht
  rcases List.mem_append.1 ht with h | h
  · exact h₁ t h
  · exact h₂ t h

end Edit

theorem Hsba.withHex_eq_map (c : Hsba) (t : String) :
    c.withHex t = (Hsba.black.withHex t).map fun k => { k with a := c.a } := by
  unfold Hsba.withHex
  cases Colour.resolve t with
  | error f => rfl
  | ok v =>
    dsimp only [bind, Except.bind]
    cases Colour.parseHex v with
    | error f => rfl
    | ok rgb => rfl

/-- Recolouring keeps the colour's alpha and reads nothing else of it. -/
theorem Source.recolour_eq_map (src : Source) (c : Hsba) (t : String) :
    src.recolour c t = (src.recolour Hsba.black t).map fun k => { k with a := c.a } := by
  unfold Source.recolour
  rw [Hsba.withHex_eq_map]
  cases Hsba.black.withHex t <;> rfl

theorem run_liftM_ok_bind {α β : Type} (x : α) (f : α → Reading β) (c : Cursor) :
    ((liftM (Except.ok x : Except Fault α) : Reading α) >>= f).run c = (f x).run c := rfl

/-! ## Readings that make one edit -/

/-- A reading that starts from a delta makes one edit of it: from each cursor it ends with one
fault whatever the delta, or with one edit of the delta, whose transforms are affine, and one
cursor. -/
def MakesEdit (m : Delta → Reading Delta) : Prop :=
  ∀ c, ∃ o : Except Fault ({e : Edit // e.Affine} × Cursor),
    ∀ d, (m d).run c = o.map fun r => (r.1.val.apply d, r.2)

namespace MakesEdit

variable {α : Type}

theorem pure_apply {e : Edit} (he : e.Affine) : MakesEdit fun d => pure (e.apply d) :=
  fun c => ⟨.ok (⟨e, he⟩, c), fun _ => rfl⟩

theorem throw (f : Fault) : MakesEdit fun _ => MonadExcept.throw f :=
  fun _ => ⟨.error f, fun _ => rfl⟩

/-- Reading first what does not depend on the delta. -/
theorem bind_const (n : Reading α) {k : α → Delta → Reading Delta} (hk : ∀ x, MakesEdit (k x)) :
    MakesEdit fun d => n >>= fun x => k x d := by
  intro c
  cases hn : n.run c with
  | error f => exact ⟨.error f, fun d => by rw [StateT.run_bind, hn]; rfl⟩
  | ok r =>
    obtain ⟨o, ho⟩ := hk r.1 r.2
    exact ⟨o, fun d => by rw [StateT.run_bind, hn]; exact ho d⟩

theorem ite {p : Prop} [Decidable p] {m₁ m₂ : Delta → Reading Delta} (h₁ : MakesEdit m₁)
    (h₂ : MakesEdit m₂) : MakesEdit fun d => if p then m₁ d else m₂ d := by
  by_cases hp : p
  · simpa only [if_pos hp] using h₁
  · simpa only [if_neg hp] using h₂

/-- Reading on from the delta a reading made: the two edits one after the other. -/
theorem bind {m k : Delta → Reading Delta} (hm : MakesEdit m) (hk : MakesEdit k) :
    MakesEdit fun d => m d >>= k := by
  intro c
  obtain ⟨o₁, h₁⟩ := hm c
  cases o₁ with
  | error f => exact ⟨.error f, fun d => by rw [StateT.run_bind, h₁ d]; rfl⟩
  | ok r =>
    obtain ⟨o₂, h₂⟩ := hk r.2
    refine ⟨o₂.map fun s => (⟨r.1.val.andThen s.1.val, r.1.property.andThen s.1.property⟩, s.2),
      fun d => ?_⟩
    rw [StateT.run_bind, h₁ d]
    show (k (r.1.val.apply d)).run r.2 = _
    rw [h₂]
    cases o₂ with
    | error f => rfl
    | ok s => simp [Except.map, Edit.apply_andThen]

theorem of_apply {f : Delta → Delta} (e : Edit) (he : e.Affine) (h : ∀ d, f d = e.apply d) :
    MakesEdit fun d => pure (f d) := by
  rw [funext h]
  exact pure_apply he

/-- A geometry command composes one transform, an affine one. -/
theorem compose {t : Transform} (ht : t.Affine) :
    MakesEdit fun d => pure { d with transform := d.transform * t } :=
  pure_apply (e := ⟨[t], none, .empty, .empty, .empty⟩) (Edit.affine_single ht)

/-- Composing a transform that a construction which may fail builds, knowing it is affine
when it is built. -/
theorem bind_affine {x : Except Fault Transform} (hx : ∀ t, x = .ok t → t.Affine)
    {k : Transform → Delta → Reading Delta} (hk : ∀ t, t.Affine → MakesEdit (k t)) :
    MakesEdit fun d => (liftM x : Reading Transform) >>= fun t => k t d := by
  intro c
  cases x with
  | error f => exact ⟨.error f, fun _ => rfl⟩
  | ok t =>
    obtain ⟨o, ho⟩ := hk t (hx t rfl) c
    exact ⟨o, fun d => by rw [run_liftM_ok_bind]; exact ho d⟩

/-- A colour command may replace the paint. -/
theorem paint (p : Paint) : MakesEdit fun d => pure { d with paint := some p } :=
  pure_apply (e := ⟨[], some p, .empty, .empty, .empty⟩) Edit.affine_of_nil

/-- A channel command writes channels of the shift. -/
theorem shifted (w : Writes) (hw : w.any = true) :
    MakesEdit fun d => pure { d with shift := some (w.overwrite (d.shift.getD ⟨0.0, 1.0, 1.0, 1.0⟩)) } :=
  of_apply ⟨[], none, w, .empty, .empty⟩ Edit.affine_of_nil fun d => by simp [Edit.apply, hw]

/-- A channel blend writes one channel of the target, with full strength, and the same channel
of the ratio. -/
theorem starChannel (ch : String) (value ratio : Float) :
    MakesEdit fun d => pure { d with target := Hsba.withChannel { d.target with a := 1.0 } ch value,
                                     ratio := Hsba.withChannel d.ratio ch ratio } :=
  of_apply ⟨[], none, .empty, (Writes.channel ch value).withAlpha 1.0, Writes.channel ch ratio⟩
    Edit.affine_of_nil fun d => by simp [Edit.apply, Writes.overwrite_channel, Writes.overwrite_withAlpha_channel]

/-- A blend toward a colour of the text: the colour takes the old target's alpha only for the
strength to write over it, so the old target is not read. -/
theorem blend (src : Source) (t command : String) :
    MakesEdit fun d => (liftM (src.recolour d.target t) : Reading Hsba) >>= fun target =>
      number src command >>= fun strength =>
        pure { d with target := { target with a := strength },
                      ratio := ⟨1.0, 1.0, 1.0, 1.0⟩ } := by
  intro c
  cases hk : src.recolour Hsba.black t with
  | error f =>
    refine ⟨.error f, fun d => ?_⟩
    have hd : src.recolour d.target t = .error f := by rw [Source.recolour_eq_map, hk]; rfl
    dsimp only
    rw [hd]
    rfl
  | ok k =>
    have hd : ∀ d : Delta, src.recolour d.target t = .ok { k with a := d.target.a } := fun d => by
      rw [Source.recolour_eq_map, hk]; rfl
    cases hn : (number src command).run c with
    | error f =>
      refine ⟨.error f, fun d => ?_⟩
      dsimp only
      rw [hd, run_liftM_ok_bind, StateT.run_bind, hn]
      rfl
    | ok r =>
      refine ⟨.ok (⟨⟨[], none, .empty, ⟨some k.h, some k.s, some k.b, some r.1⟩,
        ⟨some 1.0, some 1.0, some 1.0, some 1.0⟩⟩, Edit.affine_of_nil⟩, r.2), fun d => ?_⟩
      dsimp only
      rw [hd, run_liftM_ok_bind, StateT.run_bind, hn]
      rfl

end MakesEdit

/-! ## Commands -/

theorem named_makes_edit (src : Source) (w : String) : MakesEdit fun d => named src d w := by
  unfold named
  dsimp only
  -- one branch per command word, in the order `named` tests them; each reads its arguments
  -- before it looks at the delta, and then writes one part of it
  refine .ite ?x (.ite ?y (.ite ?z (.ite ?rx (.ite ?ry (.ite ?rz (.ite ?s (.ite ?fx (.ite ?fy
    (.ite ?fz (.ite ?m (.ite ?hue (.ite ?sat (.ite ?brightness (.ite ?alpha (.ite ?blend
    (.ite ?color (.ite ?random (.throw _))))))))))))))))))
  -- the geometry commands compose one transform, built by a constructor
  case x | y | z => exact .bind_const _ fun _ => .compose (Transform.offset_affine _ _ _)
  case rx =>
    exact .bind_const _ fun _ => .bind_affine (fun _ => Transform.rotationX_affine) fun _ => .compose
  case ry =>
    exact .bind_const _ fun _ => .bind_affine (fun _ => Transform.rotationY_affine) fun _ => .compose
  case rz =>
    exact .bind_const _ fun _ => .bind_affine (fun _ => Transform.rotationZ_affine) fun _ => .compose
  case s =>
    -- one factor, or three when a second number follows
    refine .bind_const _ fun _ => .bind_const _ fun y => ?_
    cases y with
    | none => exact .compose (Transform.scale_affine _ _ _)
    | some _ => exact .bind_const _ fun _ => .compose (Transform.scale_affine _ _ _)
  case fx | fy | fz => exact .compose (Transform.scale_affine _ _ _)
  case m => exact .bind_const _ fun _ => .compose (Transform.linear_affine _)
  -- the channel commands write one channel of the shift
  case hue => exact .bind_const _ fun _ => .shifted ⟨some _, none, none, none⟩ rfl
  case sat => exact .bind_const _ fun _ => .shifted ⟨none, some _, none, none⟩ rfl
  case brightness => exact .bind_const _ fun _ => .shifted ⟨none, none, some _, none⟩ rfl
  case alpha => exact .bind_const _ fun _ => .shifted ⟨none, none, none, some _⟩ rfl
  case blend => exact .bind_const _ fun t => .blend src t "blend"
  case color =>
    -- a colour, or the word `random` or `#?` for the pool
    refine .bind_const _ fun t => ?_
    cases t with
    | some _ => exact .bind_const _ fun _ => .paint _
    | none =>
      refine .bind_const _ fun next => ?_
      cases next with
      | some _ => exact .ite (.paint _) (.throw _)
      | none => exact .throw _
  case random => exact .paint _

theorem command_makes_edit (src : Source) (w : OpWord) : MakesEdit fun d => command src d w := by
  unfold command
  cases w with
  | hex h => exact .bind_const _ fun _ => .paint _
  | star =>
    -- a colour and a strength, or a channel and two numbers
    refine .bind_const _ fun t => ?_
    cases t with
    | some t => exact .blend src t "*"
    | none =>
      refine .bind_const _ fun next => ?_
      cases next with
      | some _ =>
        exact .ite (.bind_const _ fun _ => .bind_const _ fun _ => .starChannel _ _ _) (.throw _)
      | none => exact .throw _
  | name n =>
    -- a colour name that is no command paints; any other word is a command
    exact .ite (.bind_const _ fun _ => .paint _) (named_makes_edit src n)
  | _ =>
    -- a number or a variable cannot start a command
    exact .throw _

theorem commandsFrom_makes_edit (src : Source) :
    ∀ fuel, MakesEdit fun d => commandsFrom src fuel d
  | 0 => MakesEdit.pure_apply (e := Edit.empty) Edit.affine_of_nil
  | fuel + 1 => by
    unfold commandsFrom
    refine MakesEdit.bind_const _ fun w => ?_
    split
    · exact MakesEdit.pure_apply (e := Edit.empty) Edit.affine_of_nil
    · exact (command_makes_edit src _).bind (commandsFrom_makes_edit src fuel)

/-- The delta an operator text makes of `d`: its commands read onto `d`. Reading a text is
reading it onto the neutral delta (`read_eq_readOnto`). -/
def readOnto (text : String) (lookup : String → Option String) (pool : Pool) (d : Delta) :
    Except Fault Delta := do
  let words ← OpWord.split text
  let (d, c) ← (commandsFrom ⟨text, lookup, pool⟩ words.length d).run ⟨words, false⟩
  return { d with usesVariables := c.usedVariables }

theorem read_eq_readOnto (text : String) (lookup : String → Option String) (pool : Pool) :
    read text lookup pool = readOnto text lookup pool neutral := rfl

/-- **An operator text makes one edit of whatever delta it is read onto:** it fails on every
delta with one fault, or it edits every delta alike and reports one use of variables. -/
theorem readOnto_makes_edit (text : String) (lookup : String → Option String) (pool : Pool) :
    (∃ f, ∀ d, readOnto text lookup pool d = .error f) ∨
      ∃ (e : Edit) (u : Bool), ∀ d, readOnto text lookup pool d = .ok { e.apply d with usesVariables := u } := by
  unfold readOnto
  cases OpWord.split text with
  | error f => exact .inl ⟨f, fun _ => rfl⟩
  | ok words =>
    obtain ⟨o, ho⟩ := commandsFrom_makes_edit ⟨text, lookup, pool⟩ words.length ⟨words, false⟩
    cases o with
    | error f => exact .inl ⟨f, fun d => by simp only [bind, Except.bind, ho d]; rfl⟩
    | ok r => exact .inr ⟨r.1.val, r.2.usedVariables, fun d => by simp only [bind, Except.bind, ho d]; rfl⟩

/-- **The transform an operator text reads is a chain of affine factors** composed on the right
onto the identity: the transforms its geometry commands build, in order. -/
theorem read_transform_chain {text : String} {lookup : String → Option String} {pool : Pool}
    {d : Delta} (h : read text lookup pool = .ok d) :
    ∃ fs : List Transform, (∀ t ∈ fs, t.Affine) ∧ d.transform = fs.foldl (· * ·) Transform.identity := by
  unfold read at h
  cases hs : OpWord.split text with
  | error f =>
    rw [hs] at h
    cases h
  | ok words =>
    obtain ⟨o, ho⟩ := commandsFrom_makes_edit ⟨text, lookup, pool⟩ words.length ⟨words, false⟩
    rw [hs] at h
    cases o with
    | error f =>
      simp only [bind, Except.bind, ho neutral] at h
      cases h
    | ok r =>
      simp only [bind, Except.bind, ho neutral] at h
      cases h
      exact ⟨r.1.val.factors, r.1.property, rfl⟩

/-- **In exact arithmetic the transform an operator text reads is affine, and its volume factor
is the product of its factors'**: the chain of `read_transform_chain`, each double read by a
reading that takes `0.0` to `0` and `1.0` to `1`. -/
theorem read_exactChain_affine {text : String} {lookup : String → Option String} {pool : Pool}
    {d : Delta} (h : read text lookup pool = .ok d) {R : Type} [CommRing R] {φ : Float → R}
    (h0 : φ 0.0 = 0) (h1 : φ 1.0 = 1) :
    ∃ fs : List Transform, d.transform = fs.foldl (· * ·) Transform.identity ∧
      Transform.IsAffine (Transform.exactChain φ (fun i => φ (Transform.identity.get i)) fs) ∧
      Transform.blockDet (Transform.exactChain φ (fun i => φ (Transform.identity.get i)) fs) =
        (fs.map fun t => Transform.blockDet fun i => φ (t.get i)).prod := by
  obtain ⟨fs, hfs, htr⟩ := read_transform_chain h
  obtain ⟨haff, hdet⟩ :=
    Transform.exactChain_affine h0 h1 fs hfs (Transform.identity_affine.isAffine h0 h1)
  refine ⟨fs, htr, haff, ?_⟩
  rw [hdet, Transform.blockDet_identity h0 h1, one_mul]

end Delta

end ShapeGrammar
