import ShapeGrammar.Colour.Pool
import ShapeGrammar.Settings.Literal
import ShapeGrammar.Number.Whole
/-!
# Build settings

The settings that govern a build: how deep rules may recurse, how many objects may be
made, the sizes an object must lie between, the seed, three scene colours, the colour
pool, and any other key a script sets, kept as text for the application.

A script changes them with `set <key> <value>` (`Settings.set`): keys have short
aliases, counts are numbers truncated toward zero and lowered to their ceiling with a
notice, colours are names, hexadecimal colours or grey levels in percent. A caller
may give them as JSON before any script runs (`Settings.ofOverrides`), where counts
must be natural numbers and may exceed the ceilings, which the caller may also set.
-/

namespace ShapeGrammar

/-- A setting with a meaning of its own. -/
inductive Setting where
  | maxDepth
  | maxObjects
  | minSize
  | maxSize
  | seed
  | background
  | floor
  | sky
  | colourPool
deriving DecidableEq, Repr

namespace Setting

/-- The setting a script key stands for: its own name or an alias. The empty key is
the depth. -/
def ofKey? : String → Option Setting
  | "" | "maxdepth" => some .maxDepth
  | "maxobjects" | "mo" => some .maxObjects
  | "minsize" | "min" => some .minSize
  | "maxsize" | "max" => some .maxSize
  | "seed" | "s" => some .seed
  | "background" | "bg" => some .background
  | "floor" => some .floor
  | "sky" => some .sky
  | "colorpool" | "cp" => some .colourPool
  | _ => none

/-- The name of a setting. -/
def name : Setting → String
  | .maxDepth => "maxdepth"
  | .maxObjects => "maxobjects"
  | .minSize => "minsize"
  | .maxSize => "maxsize"
  | .seed => "seed"
  | .background => "background"
  | .floor => "floor"
  | .sky => "sky"
  | .colourPool => "colorpool"

@[simp] theorem ofKey?_name (w : Setting) : ofKey? w.name = some w := by
  cases w <;> rfl

/-- A key that stands for no setting is the name of none. -/
theorem ne_name_of_ofKey?_eq_none {k : String} (h : ofKey? k = none) (w : Setting) :
    k ≠ w.name := by
  rintro rfl
  rw [ofKey?_name] at h
  cases h

end Setting

/-- How a stored setting is read back. -/
inductive Reading where
  | number
  | int
  | colour
  | array
  | hash
  | text
deriving DecidableEq, Repr

/-- A setting read back. -/
inductive ReadValue where
  | none
  | number (x : Float)
  | int (n : Int)
  | text (s : String)
  | list (items : List String)
  | table (entries : List (String × String))

/-- The build settings. -/
structure Settings where
  maxDepth : Int := 10000
  maxObjects : Int := 100000
  minSize : Float := 0.0
  maxSize : Float := 10000.0
  seed : Option Int := none
  background : Option String := none
  floor : Option String := none
  sky : Option String := none
  pool : Pool := ⟨none, .randomRgb, "randomrgb"⟩
  /-- Keys without a meaning of their own, in the order first set. -/
  extras : List (String × String) := []
  depthCeiling : Int := 100000
  objectCeiling : Int := 5000000

namespace Settings

/-- The number grammar of settings: an optional sign, digits with an optional point, or a
point and digits, then an optional exponent. Digits of any script count. -/
def isNumberText (cs : List Char) : Bool :=
  let cs := match cs with
    | '+' :: r | '-' :: r => r
    | r => r
  let whole := cs.takeWhile Text.isDigit
  let rest := cs.dropWhile Text.isDigit
  let (fracOk, rest) := match rest with
    | '.' :: r =>
      let frac := r.takeWhile Text.isDigit
      (!whole.isEmpty || !frac.isEmpty, r.dropWhile Text.isDigit)
    | r => (!whole.isEmpty, r)
  let expOk := match rest with
    | [] => true
    | e :: r =>
      (e == 'e' || e == 'E') &&
        (let r := match r with
          | '+' :: q | '-' :: q => q
          | q => q
         !r.isEmpty && r.all Text.isDigit)
  fracOk && expOk

/-- The number a setting value writes, after trimming blanks; `none` if it writes none. -/
def readNumber? (text : String) : Option Float :=
  let t := Text.trim text
  if isNumberText t.toList then Number.readFloat? t else none

/-- `n` in lower-case hexadecimal with at least two digits. -/
def hex2 (n : Nat) : String := Text.hexPadded 2 n

/-- A colour value: a colour name gives its `#rrggbb`, a hexadecimal colour of three or six
digits stays as written, and a number is a grey level in percent, `n * 2.56` clamped to
`[0, 255]` and truncated; anything else is no colour. Blanks around it are dropped. -/
def readColour? (text : String) : Option String :=
  let t := Text.trim text
  match Colour.named? t with
  | some v => some v
  | none =>
    if (Colour.hexChannels? (α := Float) t).isSome then some t
    else
      (readNumber? t).map fun n =>
        let v := n * 2.56
        let v := if 0.0 > v then 0.0 else v
        let v := if 255.0 < v then 255.0 else v
        let level := ((Number.truncate? v).getD 0).toNat
        "#" ++ hex2 level ++ hex2 level ++ hex2 level

/-- The items of an array value: brackets and blanks around the whole dropped, then split
at commas, each item trimmed. -/
def readArray (text : String) : List String :=
  let t := (Text.trim text).toList
  let t := (t.dropWhile (fun c => c == '[' || c == ']')).reverse.dropWhile (fun c => c == '[' || c == ']')
  ((String.ofList t.reverse).splitOn ",").map Text.trim

/-- The value of an extra key set to `v`: set in place when the key is known, added at the
end otherwise. -/
def putExtra (extras : List (String × String)) (k v : String) : List (String × String) :=
  if extras.any (·.1 == k) then extras.map fun (k', v') => if k' == k then (k, v) else (k', v')
  else extras ++ [(k, v)]

/-- The ceiling of a count setting. -/
def ceiling? (s : Settings) : Setting → Option Int
  | .maxDepth => some s.depthCeiling
  | .maxObjects => some s.objectCeiling
  | _ => none

/-- A count after the ceiling: lowered to it with a notice when above it. -/
def capped (s : Settings) (which : Setting) (n : Int) : Int × List Notice :=
  match s.ceiling? which with
  | some c => if n > c then (c, [.capped which.name n c]) else (n, [])
  | none => (n, [])

/-- The store with a counted setting changed. -/
def withCount (s : Settings) (which : Setting) (n : Int) : Settings :=
  match which with
  | .maxDepth => { s with maxDepth := n }
  | .maxObjects => { s with maxObjects := n }
  | .seed => { s with seed := some n }
  | _ => s

@[simp] theorem pool_withCount (s : Settings) (which : Setting) (n : Int) :
    (s.withCount which n).pool = s.pool := by
  cases which <;> rfl

@[simp] theorem extras_withCount (s : Settings) (which : Setting) (n : Int) :
    (s.withCount which n).extras = s.extras := by
  cases which <;> rfl

/-- The store with a scene colour changed. -/
def withColour (s : Settings) (which : Setting) (v : Option String) : Settings :=
  match which with
  | .background => { s with background := v }
  | .floor => { s with floor := v }
  | .sky => { s with sky := v }
  | _ => s

@[simp] theorem pool_withColour (s : Settings) (which : Setting) (v : Option String) :
    (s.withColour which v).pool = s.pool := by
  cases which <;> rfl

@[simp] theorem extras_withColour (s : Settings) (which : Setting) (v : Option String) :
    (s.withColour which v).extras = s.extras := by
  cases which <;> rfl

/-- Apply `set key value`. `cp:g v` and `cp:h v` stand for `colorpool grayscale:v` and
`colorpool randomhue:v`; a key with no meaning of its own is kept as text. A failed
colour pool change leaves the pool without its palette (see `Pool.assign`); every other
failure leaves the store as it was. -/
def set (s : Settings) (key value : String) : Outcome Settings :=
  let (key, value) :=
    if key == "cp:g" then ("colorpool", "grayscale:" ++ value)
    else if key == "cp:h" then ("colorpool", "randomhue:" ++ value)
    else (key, value)
  match Setting.ofKey? key with
  | none => .done { s with extras := putExtra s.extras key value }
  | some which =>
    match which with
    | .maxDepth | .maxObjects | .seed =>
      match readNumber? value with
      | none => .failed s (.expectedNumber (if key.isEmpty then "maxdepth" else key))
      | some x =>
        match Number.truncate? x with
        | none => .failed s (if x.isNaN then .nanToInteger else .infiniteToInteger)
        | some n =>
          let (n, notes) := s.capped which n
          ⟨s.withCount which n, notes, none⟩
    | .minSize =>
      match readNumber? value with
      | none => .failed s (.expectedNumber key)
      | some x => .done { s with minSize := x }
    | .maxSize =>
      match readNumber? value with
      | none => .failed s (.expectedNumber key)
      | some x => .done { s with maxSize := x }
    | .colourPool =>
      let r := s.pool.assign value
      let s' := { s with pool := r.state }
      match r.fault with
      | none => ⟨s', r.notices, none⟩
      | some f =>
        match f.kind with
        | .value => ⟨s', r.notices, some (.badScheme key f)⟩
        | _ => ⟨s', r.notices, some f⟩
    | .background | .floor | .sky =>
      match readColour? value with
      | none => .failed s (.unrecognisedColour key)
      | some c => .done (s.withColour which (some c))

/-- The third power of a double; a finite value whose cube overflows is out of range. -/
def cube (x : Float) : Except Fault Float :=
  let y := Float.pow x 3.0
  if y.isInf && Number.isFinite x then .error .powerOutOfRange else .ok y

/-- The cube of the least size: objects must be larger in volume. -/
def min3 (s : Settings) : Except Fault Float := cube s.minSize

/-- The cube of the greatest size: objects must be smaller in volume. -/
def max3 (s : Settings) : Except Fault Float := cube s.maxSize

/-- A stored setting as the store keeps it, before it is read: extras first, then the
setting a key or alias names. -/
def raw? (s : Settings) (key : String) : Option Json :=
  let name := match Setting.ofKey? key with
    | some w => w.name
    | none => key
  match (s.extras.find? (·.1 == name)) with
  | some (_, v) => some (.str v)
  | none =>
    match Setting.ofKey? name with
    | some .maxDepth => some (.int s.maxDepth)
    | some .maxObjects => some (.int s.maxObjects)
    | some .minSize => some (.num s.minSize)
    | some .maxSize => some (.num s.maxSize)
    | some .seed => s.seed.map Json.int
    | some .background => s.background.map Json.str
    | some .floor => s.floor.map Json.str
    | some .sky => s.sky.map Json.str
    | some .colourPool => some (.str s.pool.scheme)
    | none => none

/-- Read a setting back as the given kind; an unset setting reads as nothing. A `hash`
gathers every extra key `key:sub` into `sub ↦ value`. -/
def get (s : Settings) (key : String) (kind : Reading) : Except Fault ReadValue :=
  match kind with
  | .hash =>
    let pre := key ++ ":"
    let found := s.extras.filterMap fun (k, v) =>
      if k.startsWith pre then some (String.ofList (k.toList.drop pre.length), v) else none
    .ok (if found.isEmpty then .none else .table found)
  | _ =>
    match s.raw? key with
    | none => .ok .none
    | some j =>
      let text := j.plainText
      match kind with
      | .number => .ok (.number ((readNumber? text).getD 0.0))
      | .int =>
        match readNumber? text with
        | none => .ok (.int 0)
        | some x =>
          match Number.truncate? x with
          | some n => .ok (.int n)
          | none => .error (if x.isNaN then .nanToInteger else .infiniteToInteger)
      | .colour => .ok (.text ((readColour? text).getD "#000"))
      | .array => .ok (.list (readArray text))
      | _ => .ok (.text text)

/-- The settings as a JSON object: the nine named settings, then the extra keys. -/
def toJson (s : Settings) : Json :=
  let opt := fun (v : Option String) => Json.ofOption Json.str v
  .obj ([("maxdepth", .int s.maxDepth), ("maxobjects", .int s.maxObjects),
    ("minsize", .num s.minSize), ("maxsize", .num s.maxSize),
    ("seed", Json.ofOption Json.int s.seed), ("background", opt s.background),
    ("floor", opt s.floor), ("sky", opt s.sky), ("colorpool", .str s.pool.scheme)]
    ++ s.extras.map fun (k, v) => (k, .str v))

/-- A count from the caller: a natural number. -/
def countOf (path : String) : Json → Except Fault Int
  | .int n => if n ≥ 0 then .ok n else .error (.configCount path)
  | _ => .error (.configCount path)

/-- A size from the caller: a non-negative number. A whole number must have a nearest
double. -/
def sizeOf (path : String) : Json → Except Fault Float
  | .int n => if n ≥ 0 then Number.doubleOfInt? n else .error (.configSize path)
  | .num x => if x ≥ 0.0 then .ok x else .error (.configSize path)
  | _ => .error (.configSize path)

/-- Apply one setting given by the caller. -/
def override (s : Settings) (key : String) (v : Json) : Outcome Settings :=
  let path := "criteria." ++ key
  let lift := fun (r : Except Fault Settings) => match r with
    | .ok s' => Outcome.done s'
    | .error f => Outcome.failed s f
  match key with
  | "maxdepth" => lift ((countOf path v).map fun n => { s with maxDepth := n })
  | "maxobjects" => lift ((countOf path v).map fun n => { s with maxObjects := n })
  | "depth_ceiling" => lift ((countOf path v).map fun n => { s with depthCeiling := n })
  | "object_ceiling" => lift ((countOf path v).map fun n => { s with objectCeiling := n })
  | "minsize" => lift ((sizeOf path v).map fun x => { s with minSize := x })
  | "maxsize" => lift ((sizeOf path v).map fun x => { s with maxSize := x })
  | "seed" =>
    match v with
    | .null => .done { s with seed := none }
    | _ => lift ((countOf path v).map fun n => { s with seed := some n })
  | "background" | "floor" | "sky" =>
    let which := (Setting.ofKey? key).getD .background
    match v with
    | .null => .done (s.withColour which none)
    | _ =>
      match readColour? v.plainText with
      | some c => .done (s.withColour which (some c))
      | none => .failed s (.configColour path v.literal)
  | "colorpool" =>
    match v with
    | .str t =>
      let r := s.pool.assign t
      let s' := { s with pool := r.state }
      match r.fault with
      | none => ⟨s', r.notices, none⟩
      | some f =>
        match f.kind with
        | .value => ⟨s', r.notices, some (.configScheme path f)⟩
        | _ => ⟨s', r.notices, some f⟩
    | _ => .failed s (.configText path)
  | _ => .done { s with extras := putExtra s.extras key v.plainText }

/-- The settings with the caller's overrides applied in order; the first bad one stops. -/
def ofOverrides (overrides : List (String × Json)) : Outcome Settings :=
  overrides.foldl (fun o (k, v) => o.andThen id fun s => s.override k v) (.done {})

end Settings

end ShapeGrammar
