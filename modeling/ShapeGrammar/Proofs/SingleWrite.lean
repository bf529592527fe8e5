import ShapeGrammar.Proofs.Slots
/-!
# A `set` writes one setting, and reading it back gives what was written

`Settings.set key value` first spells out the shorthands `cp:g v` and `cp:h v` as
`colorpool grayscale:v` and `colorpool randomhue:v` (`Settings.spelledOut`). Then, when it
returns without fault, exactly one thing changes (`Settings.Changes`): an extra key gets the
value as text, or the setting the key stands for gets the value read in its own way. A
count is truncated toward zero and lowered to its ceiling (the seed has none), a size is the
number read, a scene colour the colour read, and the colour pool gets the scheme assigned to
the same pool. Every other slot and the ceilings stay as they were.

Reading the key back as text (`Settings.get _ .text`) then gives the new value as text, and an
extra key `p:q` appears under `q` in the table that `get p .hash` gathers. Reading back needs
one fact about the store, that no extra key is the name of a setting
(`Settings.ExtrasUnnamed`): an extra key is looked at first, and would hide the setting. The
store a program holds always has it (`Settings.Reachable.extrasUnnamed`): the caller's
overrides keep every setting's name for the setting, and a `set` adds an extra key only for
a key that stands for no setting.

Main statement: `Settings.set_changes_one_setting`.
-/

namespace ShapeGrammar

namespace Pool

/-- A scheme assigned without fault is kept as its trimmed text. -/
theorem scheme_assign_of_ok {p : Pool} {text : String} (h : (p.assign text).fault = none) :
    (p.assign text).state.scheme = Text.trim text := by
  rcases assign_cases text with ⟨q, hq, hs⟩ | ⟨f, hf⟩
  · rw [(hq p).2, hs]
  · rw [(hf p).1] at h
    cases h

end Pool

namespace Settings

/-! ## What one `set` writes -/

/-- The key and value that `set key value` writes, with `cp:g v` and `cp:h v` spelled out as
`colorpool grayscale:v` and `colorpool randomhue:v`. -/
def spelledOut (key value : String) : String × String :=
  if key == "cp:g" then ("colorpool", "grayscale:" ++ value)
  else if key == "cp:h" then ("colorpool", "randomhue:" ++ value)
  else (key, value)

/-- The slot a key names: the setting it stands for, or else the extra key itself. -/
def keySlot (key : String) : Slot :=
  match Setting.ofKey? key with
  | some w => .setting w
  | none => .extra key

theorem slotOf_eq (key value : String) :
    slotOf (key, value) = (keySlot (spelledOut key value).1, (spelledOut key value).2) := by
  unfold slotOf keySlot spelledOut
  dsimp only
  -- both sides read the slot of the key and value that the shorthands spell out
  generalize (if key == "cp:g" then ("colorpool", "grayscale:" ++ value)
    else if key == "cp:h" then ("colorpool", "randomhue:" ++ value) else (key, value)) = kv
  obtain ⟨k, v⟩ := kv
  cases Setting.ofKey? k with
  | some w => rfl
  | none => rfl

/-- What a `set` that returns normally does, slot by slot: the settings after it and the text
of the new value. An extra key gets the value itself; a count gets the number read, truncated
toward zero and lowered to its ceiling; the seed the number truncated, with no ceiling; a size
the number read; a scene colour the colour read; the colour pool the scheme, assigned to the
same pool. -/
inductive Changes (s : Settings) : Slot → String → Settings → String → Prop
  /-- A key that stands for no setting keeps the value as it is. -/
  | extra (key value : String) :
      Changes s (.extra key) value { s with extras := putExtra s.extras key value } value
  /-- A count is the number truncated, lowered to the ceiling. -/
  | count {w : Setting} {value : String} {x : Float} {n c : Int} (hc : s.ceiling? w = some c)
      (hx : readNumber? value = some x) (hn : Number.truncate? x = some n) :
      Changes s (.setting w) value (s.withCount w (min n c)) (toString (min n c))
  /-- The seed is the number truncated. -/
  | seed {value : String} {x : Float} {n : Int} (hx : readNumber? value = some x)
      (hn : Number.truncate? x = some n) :
      Changes s (.setting .seed) value { s with seed := some n } (toString n)
  /-- The least size is the number read. -/
  | minSize {value : String} {x : Float} (hx : readNumber? value = some x) :
      Changes s (.setting .minSize) value { s with minSize := x } (Number.toText x)
  /-- The largest size is the number read. -/
  | maxSize {value : String} {x : Float} (hx : readNumber? value = some x) :
      Changes s (.setting .maxSize) value { s with maxSize := x } (Number.toText x)
  /-- A scene colour is the colour read. -/
  | colour {w : Setting} {value c : String} (hw : w = .background ∨ w = .floor ∨ w = .sky)
      (hc : readColour? value = some c) :
      Changes s (.setting w) value (s.withColour w (some c)) c
  /-- The pool gets the scheme, assigned to the pool it was. -/
  | colourPool {value : String} (hv : (s.pool.assign value).fault = none) :
      Changes s (.setting .colourPool) value { s with pool := (s.pool.assign value).state }
        (Text.trim value)

/-- A count is lowered to its ceiling: it becomes the smaller of the two. -/
theorem capped_of_ceiling {s : Settings} {w : Setting} {c : Int} (hc : s.ceiling? w = some c)
    (n : Int) : (s.capped w n).1 = min n c := by
  simp only [capped, hc]
  split <;> omega

/-- A number that reads as a whole number is written to a count as `Changes` says. -/
theorem writeCount_changes {s : Settings} {w : Setting} {x : String} {c : Int}
    (hc : s.ceiling? w = some c) (hA : ((readNumber? x).bind Number.truncate?).isSome) :
    ∃ t, Changes s (.setting w) x (s.writeCount w x) t := by
  obtain ⟨n, hn⟩ := Option.isSome_iff_exists.mp hA
  obtain ⟨y, hy, hyn⟩ := Option.bind_eq_some_iff.mp hn
  have hw : s.writeCount w x = s.withCount w (min n c) := by
    simp only [writeCount, hn, Option.elim_some, capped_of_ceiling hc]
  exact hw ▸ ⟨_, .count hc hy hyn⟩

/-- **A value that reads in its slot is written as `Changes` says.** -/
theorem write_changes (s : Settings) {sl : Slot} {x : String} (hA : sl.Accepts x) :
    ∃ t, Changes s sl x (s.write sl x) t := by
  cases sl with
  | extra k => exact ⟨_, .extra k x⟩
  | setting w =>
    cases w
    case maxDepth => exact writeCount_changes rfl hA
    case maxObjects => exact writeCount_changes rfl hA
    case seed =>
      obtain ⟨n, hn⟩ := Option.isSome_iff_exists.mp hA
      obtain ⟨y, hy, hyn⟩ := Option.bind_eq_some_iff.mp hn
      have hw : s.write (.setting .seed) x = { s with seed := some n } := by
        simp only [write, writeSetting, writeCount, hn, Option.elim_some]
        rfl
      exact hw ▸ ⟨_, .seed hy hyn⟩
    case minSize =>
      obtain ⟨y, hy⟩ := Option.isSome_iff_exists.mp hA
      have hw : s.write (.setting .minSize) x = { s with minSize := y } := by
        simp only [write, writeSetting, hy, Option.elim_some]
      exact hw ▸ ⟨_, .minSize hy⟩
    case maxSize =>
      obtain ⟨y, hy⟩ := Option.isSome_iff_exists.mp hA
      have hw : s.write (.setting .maxSize) x = { s with maxSize := y } := by
        simp only [write, writeSetting, hy, Option.elim_some]
      exact hw ▸ ⟨_, .maxSize hy⟩
    case background | floor | sky =>
      obtain ⟨c, hc⟩ := Option.isSome_iff_exists.mp hA
      simp only [write, writeSetting, writeColour, hc, Option.elim_some]
      exact ⟨_, .colour (by simp) hc⟩
    case colourPool =>
      have hf : (s.pool.assign x).fault = none := (Pool.assign_fault _ Pool.blank x).trans hA
      exact ⟨_, .colourPool hf⟩

/-! ## Reading back -/

/-- No extra key is the name of a setting, so that reading a setting finds the setting. -/
def ExtrasUnnamed (s : Settings) : Prop := ∀ w : Setting, ∀ e ∈ s.extras, e.1 ≠ w.name

theorem find?_putExtra (extras : List (String × String)) (k v : String) :
    (putExtra extras k v).find? (·.1 == k) = some (k, v) := by
  unfold putExtra
  split
  · rename_i hany
    induction extras with
    | nil => simp at hany
    | cons e rest ih =>
      obtain ⟨a, b⟩ := e
      by_cases ha : a = k
      · simp [ha]
      · have hak : (a == k) = false := beq_false_of_ne ha
        simp only [List.any_cons, hak, Bool.false_or] at hany
        simp only [List.map_cons, hak, Bool.false_eq_true, if_false, List.find?_cons]
        exact ih hany
  · rename_i hany
    rw [List.find?_append]
    have hnone : extras.find? (·.1 == k) = none := List.find?_eq_none.2 fun e he hk =>
      hany (List.any_eq_true.2 ⟨e, he, hk⟩)
    simp [hnone]

/-- In a store where no extra key is the name of a setting, none is found under a setting's
name. -/
theorem ExtrasUnnamed.find?_name {s : Settings} (hs : s.ExtrasUnnamed) (w : Setting) :
    s.extras.find? (·.1 == w.name) = none :=
  List.find?_eq_none.2 fun e he hk => hs w e he (by simpa using hk)

/-- An alias is read back as the setting's own name. -/
theorem raw?_alias (s : Settings) {key : String} {w : Setting} (hw : Setting.ofKey? key = some w) :
    s.raw? key = s.raw? w.name := by
  simp only [raw?, hw, Setting.ofKey?_name]

/-- **The text `get` shows for the key after a change is the text of the new value.** -/
theorem get_text_of_changes {s s' : Settings} {sl : Slot} {v t : String} (h : Changes s sl v s' t)
    (hs : s.ExtrasUnnamed) {key : String} (hk : keySlot key = sl) :
    s'.get key .text = .ok (.text t) := by
  unfold keySlot at hk
  cases hkey : Setting.ofKey? key with
  | none =>
    rw [hkey] at hk
    subst hk
    cases h with
    | extra => simp [get, raw?, hkey, find?_putExtra, Json.plainText]
  | some w =>
    rw [hkey] at hk
    subst hk
    -- the change keeps the extra keys, so no extra key hides the setting after it either
    have hs' : s'.ExtrasUnnamed := by
      cases h <;> simpa only [ExtrasUnnamed, extras_withCount, extras_withColour] using hs
    simp only [get]
    rw [raw?_alias s' hkey]
    simp only [raw?, Setting.ofKey?_name, hs'.find?_name w]
    cases h with
    | count hc _ _ =>
      -- only the two counts have a ceiling
      cases w <;> simp only [ceiling?, reduceCtorEq, Option.some.injEq] at hc <;> subst hc <;>
        rfl
    | seed => rfl
    | minSize => rfl
    | maxSize => rfl
    | colour hw => rcases hw with rfl | rfl | rfl <;> rfl
    | colourPool hv => simp [Json.plainText, Pool.scheme_assign_of_ok hv]

/-- The entry that `get p .hash` makes of an extra key under `p`. -/
theorem startsWith_colon_iff (p q k : String) :
    (k.startsWith (p ++ ":") = true ∧ String.ofList (k.toList.drop (p ++ ":").length) = q) ↔
      k = p ++ ":" ++ q := by
  rw [String.startsWith_string_iff]
  constructor
  · rintro ⟨⟨t, ht⟩, hq⟩
    rw [← ht, ← String.length_toList, List.drop_left] at hq
    subst hq
    apply String.toList_inj.mp
    simp [← ht]
  · rintro rfl
    refine ⟨⟨q.toList, by simp⟩, ?_⟩
    simp [← String.length_toList]

/-- The entries gathered under `p` find an extra key `p:q` under `q`, with the value every
entry of that key holds. -/
theorem lookup_suffixes {p q v : String} (l : List (String × String))
    (hall : ∀ e ∈ l, e.1 = p ++ ":" ++ q → e.2 = v) (hex : ∃ e ∈ l, e.1 = p ++ ":" ++ q) :
    (l.filterMap fun (k, w) => if k.startsWith (p ++ ":") then
      some (String.ofList (k.toList.drop (p ++ ":").length), w) else none).lookup q = some v := by
  induction l with
  | nil =>
    obtain ⟨e, he, -⟩ := hex
    cases he
  | cons e rest ih =>
    obtain ⟨k, w⟩ := e
    have hall' : ∀ e ∈ rest, e.1 = p ++ ":" ++ q → e.2 = v := fun e he => hall e (by simp [he])
    by_cases hk : k = p ++ ":" ++ q
    · -- the first entry is the key itself, and it is found first
      have hw : w = v := hall (k, w) (by simp) hk
      obtain ⟨hs, hsuf⟩ := (startsWith_colon_iff p q k).2 hk
      rw [List.filterMap_cons]
      simp only [hs, if_true, hsuf, lookup_cons_ite, hw]
    · have hex' : ∃ e ∈ rest, e.1 = p ++ ":" ++ q := by
        obtain ⟨e, he, hek⟩ := hex
        rcases List.mem_cons.1 he with rfl | he
        · exact absurd hek hk
        · exact ⟨e, he, hek⟩
      have hrest := ih hall' hex'
      by_cases hs : k.startsWith (p ++ ":") = true
      · have hsuf : q ≠ String.ofList (k.toList.drop (p ++ ":").length) := fun h =>
          hk ((startsWith_colon_iff p q k).1 ⟨hs, h.symm⟩)
        rw [List.filterMap_cons]
        simp only [hs, if_true, lookup_cons_ite, hsuf, if_false, hrest]
      · rw [List.filterMap_cons]
        simp only [hs, Bool.false_eq_true, if_false, hrest]

/-- **An extra key `p:q` is found under `q` among the keys `get p .hash` gathers**, once every
entry of that key holds `v` and there is one. -/
theorem get_hash_of_extra {s : Settings} {p q v : String}
    (hall : ∀ e ∈ s.extras, e.1 = p ++ ":" ++ q → e.2 = v)
    (hex : ∃ e ∈ s.extras, e.1 = p ++ ":" ++ q) :
    ∃ entries, s.get p .hash = .ok (.table entries) ∧ entries.lookup q = some v := by
  have hfound := lookup_suffixes s.extras hall hex
  refine ⟨_, ?_, hfound⟩
  unfold get
  dsimp only
  split
  · -- a table that finds `q` is not empty
    rename_i hempty
    rw [List.isEmpty_iff] at hempty
    rw [hempty] at hfound
    cases hfound
  · rfl

/-! ## The stores a program holds -/

theorem mem_putExtra {extras : List (String × String)} {k v : String} {e : String × String}
    (he : e ∈ putExtra extras k v) : (e ∈ extras ∧ e.1 ≠ k) ∨ e = (k, v) := by
  unfold putExtra at he
  split at he
  · obtain ⟨e', he', rfl⟩ := List.mem_map.1 he
    by_cases hk : e'.1 = k
    · simp [hk]
    · simp [hk, he']
  · rename_i hany
    rcases List.mem_append.1 he with he | he
    · exact .inl ⟨he, fun hk => hany (List.any_eq_true.2 ⟨e, he, by simp [hk]⟩)⟩
    · exact .inr (List.mem_singleton.1 he)

/-- An extra key gets one value: every entry of the key holds it, and there is one. -/
theorem putExtra_holds (extras : List (String × String)) (k v : String) :
    (∀ e ∈ putExtra extras k v, e.1 = k → e.2 = v) ∧ ∃ e ∈ putExtra extras k v, e.1 = k := by
  refine ⟨fun e he hk => ?_, ⟨(k, v), List.mem_of_find?_eq_some (find?_putExtra extras k v), rfl⟩⟩
  rcases mem_putExtra he with ⟨-, hne⟩ | rfl
  · exact absurd hk hne
  · rfl

theorem extrasUnnamed_putExtra {s : Settings} (hs : s.ExtrasUnnamed) {k : String}
    (hk : ∀ w : Setting, k ≠ w.name) (v : String) :
    ExtrasUnnamed { s with extras := putExtra s.extras k v } := by
  intro w e he
  rcases mem_putExtra he with ⟨he, -⟩ | rfl
  · exact hs w e he
  · exact hk w

theorem ExtrasUnnamed.of_extras_eq {s t : Settings} (hs : s.ExtrasUnnamed)
    (h : t.extras = s.extras) : t.ExtrasUnnamed := by
  unfold ExtrasUnnamed
  rw [h]
  exact hs

/-- A change that sets an extra key only for a key that is the name of no setting keeps the
names of the settings for the settings. -/
theorem Altered.extrasUnnamed {s : Settings} {o : Outcome Settings} (h : Altered s o)
    (hs : s.ExtrasUnnamed) : o.state.ExtrasUnnamed := by
  cases h with
  | keeps hx _ => exact hs.of_extras_eq hx
  | extra hk ho =>
    rw [ho]
    exact extrasUnnamed_putExtra hs hk _
  | pool ho _ =>
    rw [ho]
    exact hs.of_extras_eq rfl

/-- A `set` adds an extra key only for a key that stands for no setting. -/
theorem set_extrasUnnamed {s : Settings} (hs : s.ExtrasUnnamed) (key value : String) :
    (s.set key value).state.ExtrasUnnamed :=
  (set_altered s key value).extrasUnnamed hs

/-- An override by the caller keeps the name of every setting for the setting. -/
theorem override_extrasUnnamed {s : Settings} (hs : s.ExtrasUnnamed) (key : String) (v : Json) :
    (s.override key v).state.ExtrasUnnamed :=
  (override_altered s key v).extrasUnnamed hs

/-- The settings a program holds: those made from the caller's overrides without fault, then
changed by any number of `set`s, each of which may fail and leave what it leaves. -/
inductive Reachable : Settings → Prop
  /-- The store made from the caller's overrides. -/
  | made (overrides : List (String × Json)) (h : (ofOverrides overrides).fault = none) :
      Reachable (ofOverrides overrides).state
  /-- A store changed by one more `set`. -/
  | set {s : Settings} (key value : String) (hs : Reachable s) : Reachable (s.set key value).state

theorem ofOverrides_extrasUnnamed (overrides : List (String × Json)) :
    (ofOverrides overrides).state.ExtrasUnnamed := by
  unfold ofOverrides
  have hstart : (Outcome.done ({} : Settings)).state.ExtrasUnnamed := fun _ _ he => by cases he
  generalize (Outcome.done ({} : Settings)) = o at hstart ⊢
  -- the fold keeps the invariant step by step: a step that meets a fault keeps its store
  induction overrides generalizing o with
  | nil => exact hstart
  | cons kv rest ih =>
    obtain ⟨k, v⟩ := kv
    apply ih
    dsimp only
    unfold Outcome.andThen
    split
    · exact hstart
    · exact override_extrasUnnamed hstart k v

theorem Reachable.extrasUnnamed {s : Settings} (h : s.Reachable) : s.ExtrasUnnamed := by
  induction h with
  | made overrides _ => exact ofOverrides_extrasUnnamed overrides
  | set key value _ ih => exact set_extrasUnnamed ih key value

/-! ## The main statement -/

/-- **A `set` changes exactly one setting, and reading it back gives the new value.** For
every store where no extra key is the name of a setting (every store the program holds, by
`Reachable.extrasUnnamed`) and every `set key value` that returns without fault, with
`(k, v)` the key and value once `cp:g` and `cp:h` are spelled out: the slot `k` names changes
as `Changes` says, an extra key to `v` and a setting to the value read in its own way; every
other slot and the ceilings stay as they were; `get k .text` gives the new value as text; and
when `k` is an extra key `p:q`, `get p .hash` finds `v` under `q`. -/
theorem set_changes_one_setting {s : Settings} (hs : s.ExtrasUnnamed) {key value k v : String}
    (hkv : spelledOut key value = (k, v)) (hok : (s.set key value).fault = none) :
    ∃ t, Changes s (keySlot k) v (s.set key value).state t ∧
      (∀ sl, sl ≠ keySlot k → SameAt sl (s.set key value).state s) ∧
      SameCeilings (s.set key value).state s ∧
      (s.set key value).state.get k .text = .ok (.text t) ∧
      ∀ p q, Setting.ofKey? k = none → k = p ++ ":" ++ q →
        ∃ entries, (s.set key value).state.get p .hash = .ok (.table entries) ∧
          entries.lookup q = some v := by
  obtain ⟨hA, hstate⟩ := set_eq_write hok
  rw [slotOf_eq, hkv] at hA hstate
  obtain ⟨t, ht⟩ := write_changes s hA
  rw [← hstate] at ht
  refine ⟨t, ht, fun sl hne => hstate ▸ sameAt_write_of_ne hne s v,
    hstate ▸ sameCeilings_write s _ v, get_text_of_changes ht hs rfl, ?_⟩
  intro p q hk hkq
  -- the key stands for no setting, so the `set` wrote it as an extra key
  have hslot : keySlot k = .extra k := by simp [keySlot, hk]
  rw [hstate, hslot]
  obtain ⟨hall, hex⟩ := putExtra_holds s.extras k v
  exact get_hash_of_extra (fun e he hek => hall e he (hek.trans hkq.symm)) (hkq ▸ hex)

/-- Setting the extra key `tile:size` in the store made from no overrides, which the program
holds, writes that key alone, and `get "tile" .hash` finds the value under `size`. -/
theorem set_tile_size :
    ∃ t, Changes (ofOverrides []).state (keySlot "tile:size") "big"
        ((ofOverrides []).state.set "tile:size" "big").state t ∧
      (∀ sl, sl ≠ keySlot "tile:size" →
        SameAt sl ((ofOverrides []).state.set "tile:size" "big").state (ofOverrides []).state) ∧
      SameCeilings ((ofOverrides []).state.set "tile:size" "big").state (ofOverrides []).state ∧
      ((ofOverrides []).state.set "tile:size" "big").state.get "tile:size" .text =
        .ok (.text t) ∧
      ∀ p q, Setting.ofKey? "tile:size" = none → "tile:size" = p ++ ":" ++ q →
        ∃ entries, ((ofOverrides []).state.set "tile:size" "big").state.get p .hash =
          .ok (.table entries) ∧ entries.lookup q = some "big" :=
  set_changes_one_setting (Reachable.made [] rfl).extrasUnnamed rfl rfl

end Settings

end ShapeGrammar
