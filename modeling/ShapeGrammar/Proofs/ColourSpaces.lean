import Mathlib.Algebra.Order.Archimedean.Real.Basic
import ShapeGrammar.Colour.Hex
/-!
# Colour spaces round-trip in exact arithmetic

The formulas between red, green and blue and hue, saturation and brightness are written over any
number type with the operations of `HueArith`; doubles run them. Over the real numbers, with
rounding down to whole numbers, they are the exact arithmetic that doubles round, and there they
are inverse to each other.

`Hsba.rgbOfHsb_real` reads the first formula as six sectors of the hue circle (`Hsba.sectorMix`):
one channel is the brightness, one is the brightness less the chroma, and the third lies between,
rising or falling with the hue across the sector. `Hsba.hsbOfRgb_of_extremes` reads the second one
off the largest and the least channel. Channels read back from the hue, saturation and brightness
read off them, whichever channel is largest and however channels tie
(`Hsba.rgbOfHsb_hsbOfRgb`); a colour with saturation and brightness reads back its own saturation,
brightness and hue, the hue reduced to one turn, from every sector (`Hsba.hsbOfRgb_rgbOfHsb`).
Hexadecimal channels are never negative, so every colour name and hexadecimal colour reads back as
its own channels (`Hsba.colour_spaces_round_trip`).
-/

namespace ShapeGrammar

/-- The real numbers, rounding down to whole numbers: the exact arithmetic of the colour
formulas. -/
noncomputable instance : HueArith ℝ := ⟨Nat.cast, fun x => ⌊x⌋, fun x => |x|, fun x y => x - ⌊x / y⌋ * y⟩

namespace HueArith

@[simp] theorem floor_real (x : ℝ) : HueArith.floor x = ⌊x⌋ := rfl

@[simp] theorem abs_real (x : ℝ) : HueArith.abs x = |x| := rfl

@[simp] theorem ofNat_real (n : Nat) : (HueArith.ofNat n : ℝ) = n := rfl

theorem floorRem_real (x y : ℝ) : HueArith.floorRem x y = x - ⌊x / y⌋ * y := rfl

/-- The remainder is `x` less `k` turns when `x` lies in the `k`-th turn. -/
theorem floorRem_eq_sub {x y : ℝ} (k : ℤ) (hy : 0 < y) (hk : k * y ≤ x) (hk' : x < (k + 1) * y) :
    HueArith.floorRem x y = x - k * y := by
  have hfloor : ⌊x / y⌋ = k := by
    rw [Int.floor_eq_iff, le_div_iff₀ hy, div_lt_iff₀ hy]
    exact ⟨hk, hk'⟩
  rw [floorRem_real, hfloor]

/-- The remainder lies in `[0, y)`. -/
theorem floorRem_mem {x y : ℝ} (hy : 0 < y) :
    0 ≤ HueArith.floorRem x y ∧ HueArith.floorRem x y < y := by
  have h1 := Int.floor_le (x / y)
  have h2 := Int.lt_floor_add_one (x / y)
  rw [le_div_iff₀ hy] at h1
  rw [div_lt_iff₀ hy] at h2
  rw [floorRem_real]
  constructor <;> nlinarith

/-- A number within the first turn is its own remainder. -/
theorem floorRem_of_mem {x y : ℝ} (h0 : 0 ≤ x) (h1 : x < y) : floorRem x y = x := by
  rw [floorRem_eq_sub 0 (by linarith) (by simpa using h0) (by simpa using h1)]
  simp

/-- Reducing twice is reducing once. -/
theorem floorRem_floorRem (x : ℝ) {y : ℝ} (hy : 0 < y) : floorRem (floorRem x y) y = floorRem x y :=
  floorRem_of_mem (floorRem_mem hy).1 (floorRem_mem hy).2

end HueArith

namespace Hsba

open HueArith

/-! ## Hue, saturation and brightness to red, green and blue -/

/-- The channels of a colour whose hue, in sixths of a turn, is `hp ∈ [0, 6)`, with chroma `c`
over the least channel `m`. The whole part of `hp` picks the sector: in it one channel is `c + m`,
one is `m`, and the third lies between, rising with the hue across the even sectors and falling
across the odd ones. -/
noncomputable def sectorMix (hp c m : ℝ) : ℝ × ℝ × ℝ :=
  let k := ⌊hp⌋₊
  let rise := c * (hp - k) + m
  let fall := c * (k + 1 - hp) + m
  [(c + m, rise, m), (fall, c + m, m), (m, c + m, rise), (m, fall, c + m), (rise, m, c + m)].getD k
    (c + m, m, fall)

section Sectors

variable {hp : ℝ} (c m : ℝ)

theorem sectorMix_red_rising (h1 : hp < 1) : sectorMix hp c m = (c + m, c * hp + m, m) := by
  rw [sectorMix, Nat.floor_eq_zero.2 h1]
  norm_num

theorem sectorMix_green_falling (h1 : 1 ≤ hp) (h2 : hp < 2) :
    sectorMix hp c m = (c * (2 - hp) + m, c + m, m) := by
  rw [sectorMix, Nat.floor_eq_on_Ico 1 hp ⟨by simpa using h1, by norm_num; linarith⟩]
  norm_num

theorem sectorMix_green_rising (h2 : 2 ≤ hp) (h3 : hp < 3) :
    sectorMix hp c m = (m, c + m, c * (hp - 2) + m) := by
  rw [sectorMix, Nat.floor_eq_on_Ico 2 hp ⟨by simpa using h2, by norm_num; linarith⟩]
  norm_num

theorem sectorMix_blue_falling (h3 : 3 ≤ hp) (h4 : hp < 4) :
    sectorMix hp c m = (m, c * (4 - hp) + m, c + m) := by
  rw [sectorMix, Nat.floor_eq_on_Ico 3 hp ⟨by simpa using h3, by norm_num; linarith⟩]
  norm_num

theorem sectorMix_blue_rising (h4 : 4 ≤ hp) (h5 : hp < 5) :
    sectorMix hp c m = (c * (hp - 4) + m, m, c + m) := by
  rw [sectorMix, Nat.floor_eq_on_Ico 4 hp ⟨by simpa using h4, by norm_num; linarith⟩]
  norm_num

theorem sectorMix_red_falling (h5 : 5 ≤ hp) (h6 : hp < 6) :
    sectorMix hp c m = (c + m, m, c * (6 - hp) + m) := by
  rw [sectorMix, Nat.floor_eq_on_Ico 5 hp ⟨by simpa using h5, by norm_num; linarith⟩]
  norm_num

end Sectors

/-- **The sectors of the hue circle**, in exact arithmetic: the hue reduced to one turn picks the
sector, and the chroma `b * s` stands over the least channel `b - b * s`. -/
theorem rgbOfHsb_real (h s b : ℝ) :
    rgbOfHsb h s b = sectorMix (floorRem h 360 / 60) (b * s) (b - b * s) := by
  have hturn : h - ⌊h / 360⌋ * 360 = floorRem h 360 := rfl
  obtain ⟨h0, h6⟩ := floorRem_mem (x := h) (y := 360) (by norm_num)
  have hp0 : 0 ≤ floorRem h 360 / 60 := by positivity
  have hp6 : floorRem h 360 / 60 < 6 := by linarith
  simp only [rgbOfHsb]
  norm_num only [floor_real, abs_real, hturn]
  generalize floorRem h 360 / 60 = hp at hp0 hp6 ⊢
  -- in each sector the mixed channel rises or falls with the hue's distance into it
  split_ifs with h1 h2 h3 h4 h5
  · rw [sectorMix_red_rising _ _ h1, floorRem_eq_sub 0 two_pos (by norm_num; linarith)
      (by norm_num; linarith), abs_of_neg (by norm_num; linarith)]
    ring_nf
  · rw [sectorMix_green_falling _ _ (not_lt.1 h1) h2, floorRem_eq_sub 0 two_pos
      (by norm_num; linarith) (by norm_num; linarith), abs_of_nonneg (by norm_num; linarith)]
    ring_nf
  · rw [sectorMix_green_rising _ _ (not_lt.1 h2) h3, floorRem_eq_sub 1 two_pos
      (by norm_num; linarith) (by norm_num; linarith), abs_of_neg (by norm_num; linarith)]
    ring_nf
  · rw [sectorMix_blue_falling _ _ (not_lt.1 h3) h4, floorRem_eq_sub 1 two_pos
      (by norm_num; linarith) (by norm_num; linarith), abs_of_nonneg (by norm_num; linarith)]
    ring_nf
  · rw [sectorMix_blue_rising _ _ (not_lt.1 h4) h5, floorRem_eq_sub 2 two_pos
      (by norm_num; linarith) (by norm_num; linarith), abs_of_neg (by norm_num; linarith)]
    ring_nf
  · rw [sectorMix_red_falling _ _ (not_lt.1 h5) hp6, floorRem_eq_sub 2 two_pos
      (by norm_num; linarith) (by norm_num; linarith), abs_of_nonneg (by norm_num; linarith)]
    ring_nf

/-! ## Red, green and blue to hue, saturation and brightness -/

theorem larger_eq_max (x y : ℝ) : larger x y = max x y := by
  unfold larger
  split_ifs with h
  · exact (max_eq_right h.le).symm
  · exact (max_eq_left (not_lt.1 h)).symm

theorem smaller_eq_min (x y : ℝ) : smaller x y = min x y := by
  unfold smaller
  split_ifs with h
  · exact (min_eq_right h.le).symm
  · exact (min_eq_left (not_lt.1 h)).symm

/-- **Hue, saturation and brightness off the extreme channels**, in exact arithmetic: the largest
channel is the brightness and the chroma over it the saturation; a grey has hue zero, and
otherwise the hue is read from the largest channel, the first of equal ones. -/
theorem hsbOfRgb_of_extremes {r g b hi lo : ℝ} (hhi : max (max r g) b = hi)
    (hlo : min (min r g) b = lo) :
    hsbOfRgb r g b =
      (if hi - lo ≤ 0 then 0
        else if hi = r then floorRem (60 * (g - b) / (hi - lo)) 360
        else if hi = g then 60 * (b - r) / (hi - lo) + 120
        else 60 * (r - g) / (hi - lo) + 240,
       (hi - lo) / hi, hi) := by
  -- a zero brightness gives zero saturation either way, as `x / 0 = 0`
  have hs : ∀ x y : ℝ, (if (x != 0.0) = true then y / x else 0.0) = y / x := by
    intro x y
    split_ifs with h
    · rfl
    · rw [bne_iff_ne, ne_eq, not_not] at h
      norm_num [h]
  simp only [hsbOfRgb, larger_eq_max, smaller_eq_min, hs, beq_iff_eq, hhi, hlo]
  norm_num only

/-- The largest of three numbers is the one of them that bounds the others. -/
theorem max_max_eq {a b c x : ℝ} (ha : a ≤ x) (hb : b ≤ x) (hc : c ≤ x) (hx : x = a ∨ x = b ∨ x = c) :
    max (max a b) c = x :=
  le_antisymm (max_le (max_le ha hb) hc) (by rcases hx with rfl | rfl | rfl <;> simp)

/-- The least of three numbers is the one of them that the others bound. -/
theorem min_min_eq {a b c x : ℝ} (ha : x ≤ a) (hb : x ≤ b) (hc : x ≤ c) (hx : x = a ∨ x = b ∨ x = c) :
    min (min a b) c = x :=
  le_antisymm (by rcases hx with rfl | rfl | rfl <;> simp) (le_min (le_min ha hb) hc)

/-! ## Channels read back -/

section Largest

variable {r g b lo : ℝ}

/-- Where red is largest, the hue lies in the first sector, in the second when green equals red,
or in the last when blue is above green. -/
theorem sectorMix_of_red_largest (hg : g ≤ r) (hb : b ≤ r) (hlo : min (min r g) b = lo)
    (hc : 0 < r - lo) :
    sectorMix (floorRem (60 * (g - b) / (r - lo)) 360 / 60) (r - lo) lo = (r, g, b) := by
  have hlo_g : lo ≤ g := hlo ▸ min_le_of_left_le (min_le_right r g)
  have hlo_b : lo ≤ b := hlo ▸ min_le_right _ b
  by_cases hgb : b ≤ g
  · -- blue is least, and the hue is `(g - b) / (r - b)` sixths of a turn
    have hlo' : lo = b := le_antisymm hlo_b (hlo ▸ le_min (le_min (by linarith) hgb) le_rfl)
    subst hlo'
    have hq0 : 0 ≤ (g - lo) / (r - lo) := div_nonneg (by linarith) hc.le
    have hq1 : (g - lo) / (r - lo) ≤ 1 := (div_le_one hc).2 (by linarith)
    have hhue : floorRem (60 * (g - lo) / (r - lo)) 360 / 60 = (g - lo) / (r - lo) := by
      rw [mul_div_assoc, floorRem_of_mem (by linarith) (by linarith)]
      ring
    rw [hhue]
    rcases hq1.lt_or_eq with hq1 | hq1
    · rw [sectorMix_red_rising _ _ hq1, Prod.mk.injEq, Prod.mk.injEq]
      refine ⟨by ring, by field_simp; ring, rfl⟩
    · rw [hq1, sectorMix_green_falling _ _ le_rfl one_lt_two, Prod.mk.injEq, Prod.mk.injEq]
      rw [div_eq_one_iff_eq hc.ne'] at hq1
      refine ⟨by ring, by linarith, rfl⟩
  · -- green is least, and the hue falls short of a full turn by `(b - g) / (r - g)` sixths
    push Not at hgb
    have hlo' : lo = g := le_antisymm hlo_g (hlo ▸ le_min (le_min hg le_rfl) hgb.le)
    subst hlo'
    have hq0 : -1 ≤ (lo - b) / (r - lo) := by rw [le_div_iff₀ hc]; linarith
    have hq1 : (lo - b) / (r - lo) < 0 := div_neg_of_neg_of_pos (by linarith) hc
    have hhue : floorRem (60 * (lo - b) / (r - lo)) 360 / 60 = 6 + (lo - b) / (r - lo) := by
      rw [mul_div_assoc, floorRem_eq_sub (-1) (by norm_num) (by push_cast; linarith)
        (by push_cast; linarith)]
      push_cast
      ring
    rw [hhue, sectorMix_red_falling _ _ (by linarith) (by linarith), Prod.mk.injEq, Prod.mk.injEq]
    refine ⟨by ring, rfl, by field_simp; ring⟩

/-- Where green is largest and above red, the hue lies in the third sector, in the fourth when
blue equals green, or in the second when blue is below red. -/
theorem sectorMix_of_green_largest (hr : r < g) (hb : b ≤ g) (hlo : min (min r g) b = lo)
    (hc : 0 < g - lo) :
    sectorMix (floorRem (60 * (b - r) / (g - lo) + 120) 360 / 60) (g - lo) lo = (r, g, b) := by
  have hlo_r : lo ≤ r := hlo ▸ min_le_of_left_le (min_le_left r g)
  have hlo_b : lo ≤ b := hlo ▸ min_le_right _ b
  by_cases hrb : r ≤ b
  · -- red is least
    have hlo' : lo = r := le_antisymm hlo_r (hlo ▸ le_min (le_min le_rfl hr.le) hrb)
    subst hlo'
    have hq0 : 0 ≤ (b - lo) / (g - lo) := div_nonneg (by linarith) hc.le
    have hq1 : (b - lo) / (g - lo) ≤ 1 := (div_le_one hc).2 (by linarith)
    have hhue : floorRem (60 * (b - lo) / (g - lo) + 120) 360 / 60 = 2 + (b - lo) / (g - lo) := by
      rw [mul_div_assoc, floorRem_of_mem (by linarith) (by linarith)]
      ring
    rw [hhue]
    rcases hq1.lt_or_eq with hq1 | hq1
    · rw [sectorMix_green_rising _ _ (by linarith) (by linarith), Prod.mk.injEq, Prod.mk.injEq]
      refine ⟨rfl, by ring, by field_simp; ring⟩
    · rw [hq1, sectorMix_blue_falling _ _ (by norm_num) (by norm_num), Prod.mk.injEq, Prod.mk.injEq]
      rw [div_eq_one_iff_eq hc.ne'] at hq1
      refine ⟨rfl, by ring, by linarith⟩
  · -- blue is least
    push Not at hrb
    have hlo' : lo = b := le_antisymm hlo_b (hlo ▸ le_min (le_min hrb.le (by linarith)) le_rfl)
    subst hlo'
    have hq0 : -1 < (lo - r) / (g - lo) := by rw [lt_div_iff₀ hc]; linarith
    have hq1 : (lo - r) / (g - lo) < 0 := div_neg_of_neg_of_pos (by linarith) hc
    have hhue : floorRem (60 * (lo - r) / (g - lo) + 120) 360 / 60 = 2 + (lo - r) / (g - lo) := by
      rw [mul_div_assoc, floorRem_of_mem (by linarith) (by linarith)]
      ring
    rw [hhue, sectorMix_green_falling _ _ (by linarith) (by linarith), Prod.mk.injEq, Prod.mk.injEq]
    refine ⟨by field_simp; ring, by ring, rfl⟩

/-- Where blue is largest and above red and green, the hue lies in the fifth sector, or in the
fourth when green is above red. -/
theorem sectorMix_of_blue_largest (hr : r < b) (hg : g < b) (hlo : min (min r g) b = lo)
    (hc : 0 < b - lo) :
    sectorMix (floorRem (60 * (r - g) / (b - lo) + 240) 360 / 60) (b - lo) lo = (r, g, b) := by
  have hlo_r : lo ≤ r := hlo ▸ min_le_of_left_le (min_le_left r g)
  have hlo_g : lo ≤ g := hlo ▸ min_le_of_left_le (min_le_right r g)
  by_cases hgr : g ≤ r
  · -- green is least
    have hlo' : lo = g := le_antisymm hlo_g (hlo ▸ le_min (le_min hgr le_rfl) hg.le)
    subst hlo'
    have hq0 : 0 ≤ (r - lo) / (b - lo) := div_nonneg (by linarith) hc.le
    have hq1 : (r - lo) / (b - lo) < 1 := (div_lt_one hc).2 (by linarith)
    have hhue : floorRem (60 * (r - lo) / (b - lo) + 240) 360 / 60 = 4 + (r - lo) / (b - lo) := by
      rw [mul_div_assoc, floorRem_of_mem (by linarith) (by linarith)]
      ring
    rw [hhue, sectorMix_blue_rising _ _ (by linarith) (by linarith), Prod.mk.injEq, Prod.mk.injEq]
    refine ⟨by field_simp; ring, rfl, by ring⟩
  · -- red is least
    push Not at hgr
    have hlo' : lo = r := le_antisymm hlo_r (hlo ▸ le_min (le_min le_rfl hgr.le) hr.le)
    subst hlo'
    have hq0 : -1 < (lo - g) / (b - lo) := by rw [lt_div_iff₀ hc]; linarith
    have hq1 : (lo - g) / (b - lo) < 0 := div_neg_of_neg_of_pos (by linarith) hc
    have hhue : floorRem (60 * (lo - g) / (b - lo) + 240) 360 / 60 = 4 + (lo - g) / (b - lo) := by
      rw [mul_div_assoc, floorRem_of_mem (by linarith) (by linarith)]
      ring
    rw [hhue, sectorMix_blue_falling _ _ (by linarith) (by linarith), Prod.mk.injEq, Prod.mk.injEq]
    refine ⟨rfl, by field_simp; ring, by ring⟩

end Largest

/-- **Red, green and blue read back from their hue, saturation and brightness**, whichever channel
is largest and however channels tie. -/
theorem rgbOfHsb_hsbOfRgb {r g b : ℝ} (hr : 0 ≤ r) (hg : 0 ≤ g) (hb : 0 ≤ b) :
    rgbOfHsb (hsbOfRgb r g b).1 (hsbOfRgb r g b).2.1 (hsbOfRgb r g b).2.2 = (r, g, b) := by
  obtain ⟨hi, hhi⟩ : ∃ hi, max (max r g) b = hi := ⟨_, rfl⟩
  obtain ⟨lo, hlo⟩ : ∃ lo, min (min r g) b = lo := ⟨_, rfl⟩
  have hr_hi : r ≤ hi := hhi ▸ le_max_of_le_left (le_max_left r g)
  have hg_hi : g ≤ hi := hhi ▸ le_max_of_le_left (le_max_right r g)
  have hb_hi : b ≤ hi := hhi ▸ le_max_right _ b
  have hlo0 : 0 ≤ lo := hlo ▸ le_min (le_min hr hg) hb
  rw [hsbOfRgb_of_extremes hhi hlo, rgbOfHsb_real]
  dsimp only
  by_cases hc : hi - lo ≤ 0
  · -- a grey: every channel is the brightness, and the hue is zero
    have hlo_r : lo ≤ r := hlo ▸ min_le_of_left_le (min_le_left r g)
    have hlo_g : lo ≤ g := hlo ▸ min_le_of_left_le (min_le_right r g)
    have hlo_b : lo ≤ b := hlo ▸ min_le_right _ b
    have hsat : hi * ((hi - lo) / hi) = 0 := by rw [show hi - lo = 0 by linarith]; simp
    rw [if_pos hc, floorRem_of_mem le_rfl (by norm_num), hsat, sectorMix_red_rising _ _ (by norm_num),
      Prod.mk.injEq, Prod.mk.injEq]
    refine ⟨?_, ?_, ?_⟩ <;> linarith
  · push Not at hc
    have hpos : 0 < hi := by linarith
    have hchroma : hi * ((hi - lo) / hi) = hi - lo := by field_simp
    rw [if_neg (not_le.2 hc), hchroma, show hi - (hi - lo) = lo by ring]
    by_cases hR : hi = r
    · rw [if_pos hR, floorRem_floorRem _ (by norm_num)]
      subst hR
      exact sectorMix_of_red_largest hg_hi hb_hi hlo hc
    rw [if_neg hR]
    by_cases hG : hi = g
    · rw [if_pos hG]
      subst hG
      exact sectorMix_of_green_largest (lt_of_le_of_ne hr_hi (Ne.symm hR)) hb_hi hlo hc
    rw [if_neg hG]
    -- the largest channel is neither red nor green, so it is blue
    have hB : hi = b := by
      rcases max_choice (max r g) b with h | h
      · rcases max_choice r g with h' | h'
        · exact absurd (hhi.symm.trans (h.trans h')) hR
        · exact absurd (hhi.symm.trans (h.trans h')) hG
      · exact hhi.symm.trans h
    subst hB
    exact sectorMix_of_blue_largest (lt_of_le_of_ne hr_hi (Ne.symm hR))
      (lt_of_le_of_ne hg_hi (Ne.symm hG)) hlo hc

/-- **Reading a sector back**: the channels of a sector give back its hue in degrees, the chroma
over the largest channel as saturation, and the largest channel as brightness. -/
theorem hsbOfRgb_sectorMix {hp c m : ℝ} (hp0 : 0 ≤ hp) (hp6 : hp < 6) (hc : 0 < c) :
    hsbOfRgb (sectorMix hp c m).1 (sectorMix hp c m).2.1 (sectorMix hp c m).2.2 =
      (60 * hp, c / (c + m), c + m) := by
  have hchroma : c + m - m = c := by ring
  have hnot : ¬ c + m - m ≤ 0 := by linarith
  rcases lt_or_ge hp 1 with h1 | h1
  · -- red, rising green
    have hx : c * hp ≤ c := mul_le_of_le_one_right hc.le h1.le
    have hx0 : 0 ≤ c * hp := mul_nonneg hc.le hp0
    rw [sectorMix_red_rising c m h1]
    dsimp only
    rw [hsbOfRgb_of_extremes (max_max_eq le_rfl (by linarith) (by linarith) (Or.inl rfl))
      (min_min_eq (by linarith) (by linarith) le_rfl (Or.inr (Or.inr rfl))), if_neg hnot, if_pos rfl,
      hchroma, show 60 * (c * hp + m - m) / c = 60 * hp by field_simp; ring,
      floorRem_of_mem (by linarith) (by linarith)]
  rcases lt_or_ge hp 2 with h2 | h2
  · -- falling red, green
    have hx : c * (2 - hp) ≤ c := mul_le_of_le_one_right hc.le (by linarith)
    have hx0 : 0 ≤ c * (2 - hp) := mul_nonneg hc.le (by linarith)
    rw [sectorMix_green_falling c m h1 h2]
    dsimp only
    rw [hsbOfRgb_of_extremes (max_max_eq (by linarith) le_rfl (by linarith) (Or.inr (Or.inl rfl)))
      (min_min_eq (by linarith) (by linarith) le_rfl (Or.inr (Or.inr rfl))), if_neg hnot, hchroma]
    by_cases hR : c + m = c * (2 - hp) + m
    · -- where red equals green the hue is read from red
      have hp1 : hp = 1 := by
        have := mul_left_cancel₀ hc.ne' (show c * (2 - hp) = c * 1 by linarith)
        linarith
      rw [if_pos hR, show 60 * c / c = 60 by field_simp,
        floorRem_of_mem (by norm_num) (by norm_num), hp1]
      ring_nf
    · rw [if_neg hR, if_pos rfl, show 60 * (m - (c * (2 - hp) + m)) / c + 120 = 60 * hp by
        field_simp; ring]
  rcases lt_or_ge hp 3 with h3 | h3
  · -- green, rising blue
    have hx : c * (hp - 2) ≤ c := mul_le_of_le_one_right hc.le (by linarith)
    have hx0 : 0 ≤ c * (hp - 2) := mul_nonneg hc.le (by linarith)
    rw [sectorMix_green_rising c m h2 h3]
    dsimp only
    rw [hsbOfRgb_of_extremes (max_max_eq (by linarith) le_rfl (by linarith) (Or.inr (Or.inl rfl)))
      (min_min_eq le_rfl (by linarith) (by linarith) (Or.inl rfl)), if_neg hnot,
      if_neg (by intro h; linarith), if_pos rfl, hchroma,
      show 60 * (c * (hp - 2) + m - m) / c + 120 = 60 * hp by field_simp; ring]
  rcases lt_or_ge hp 4 with h4 | h4
  · -- falling green, blue
    have hx : c * (4 - hp) ≤ c := mul_le_of_le_one_right hc.le (by linarith)
    have hx0 : 0 ≤ c * (4 - hp) := mul_nonneg hc.le (by linarith)
    rw [sectorMix_blue_falling c m h3 h4]
    dsimp only
    rw [hsbOfRgb_of_extremes (max_max_eq (by linarith) (by linarith) le_rfl (Or.inr (Or.inr rfl)))
      (min_min_eq le_rfl (by linarith) (by linarith) (Or.inl rfl)), if_neg hnot,
      if_neg (by intro h; linarith), hchroma]
    by_cases hG : c + m = c * (4 - hp) + m
    · -- where green equals blue the hue is read from green
      have hp3 : hp = 3 := by
        have := mul_left_cancel₀ hc.ne' (show c * (4 - hp) = c * 1 by linarith)
        linarith
      rw [if_pos hG, show 60 * c / c + 120 = 180 by field_simp; ring, hp3]
      ring_nf
    · rw [if_neg hG, show 60 * (m - (c * (4 - hp) + m)) / c + 240 = 60 * hp by field_simp; ring]
  rcases lt_or_ge hp 5 with h5 | h5
  · -- rising red, blue
    have hx : c * (hp - 4) < c := by nlinarith
    have hx0 : 0 ≤ c * (hp - 4) := mul_nonneg hc.le (by linarith)
    rw [sectorMix_blue_rising c m h4 h5]
    dsimp only
    rw [hsbOfRgb_of_extremes (max_max_eq (by linarith) (by linarith) le_rfl (Or.inr (Or.inr rfl)))
      (min_min_eq (by linarith) le_rfl (by linarith) (Or.inr (Or.inl rfl))), if_neg hnot,
      if_neg (by intro h; linarith), if_neg (by intro h; linarith), hchroma,
      show 60 * (c * (hp - 4) + m - m) / c + 240 = 60 * hp by field_simp; ring]
  · -- red, falling blue
    have hx : c * (6 - hp) ≤ c := mul_le_of_le_one_right hc.le (by linarith)
    have hx0 : 0 < c * (6 - hp) := mul_pos hc (by linarith)
    rw [sectorMix_red_falling c m h5 hp6]
    dsimp only
    rw [hsbOfRgb_of_extremes (max_max_eq le_rfl (by linarith) (by linarith) (Or.inl rfl))
      (min_min_eq (by linarith) le_rfl (by linarith) (Or.inr (Or.inl rfl))), if_neg hnot, if_pos rfl,
      hchroma, show 60 * (m - (c * (6 - hp) + m)) / c = 60 * hp - 360 by field_simp; ring,
      floorRem_eq_sub (-1) (by norm_num) (by push_cast; linarith) (by push_cast; linarith)]
    push_cast
    ring_nf
/-- **Hue, saturation and brightness read back from their red, green and blue**, for a colour with
saturation and brightness: the hue comes back reduced to one turn. -/
theorem hsbOfRgb_rgbOfHsb (h : ℝ) {s b : ℝ} (hs : 0 < s) (hb : 0 < b) :
    hsbOfRgb (rgbOfHsb h s b).1 (rgbOfHsb h s b).2.1 (rgbOfHsb h s b).2.2 = (floorRem h 360, s, b) := by
  obtain ⟨h0, h360⟩ := floorRem_mem (x := h) (y := 360) (by norm_num)
  rw [rgbOfHsb_real, hsbOfRgb_sectorMix (by positivity) (by linarith) (mul_pos hb hs), Prod.mk.injEq,
    Prod.mk.injEq]
  refine ⟨by ring, by field_simp; ring, by ring⟩

end Hsba

namespace Colour

/-- Hexadecimal channels are never negative. -/
theorem hexChannels?_nonneg {text : String} {r g b : ℝ} (h : hexChannels? text = some (r, g, b)) :
    0 ≤ r ∧ 0 ≤ g ∧ 0 ≤ b := by
  unfold hexChannels? at h
  split at h
  · split at h
    · simp only [Option.some.injEq, Prod.mk.injEq] at h
      obtain ⟨rfl, rfl, rfl⟩ := h
      refine ⟨?_, ?_, ?_⟩ <;> norm_num <;> positivity
    · cases h
  · split at h
    · simp only [Option.some.injEq, Prod.mk.injEq] at h
      obtain ⟨rfl, rfl, rfl⟩ := h
      refine ⟨?_, ?_, ?_⟩ <;> norm_num <;> positivity
    · cases h
  · cases h

end Colour

namespace Hsba

/-- **Colour spaces round-trip in exact arithmetic.** Red, green and blue, none negative, come back
from the hue, saturation and brightness read off them. A hue with positive saturation and
brightness comes back reduced to one turn, with its saturation and brightness, from the red,
green and blue it gives. So every colour name or hexadecimal colour, read into hue, saturation and
brightness, shows its own red, green and blue. -/
theorem colour_spaces_round_trip :
    (∀ r g b : ℝ, 0 ≤ r → 0 ≤ g → 0 ≤ b →
      rgbOfHsb (hsbOfRgb r g b).1 (hsbOfRgb r g b).2.1 (hsbOfRgb r g b).2.2 = (r, g, b)) ∧
    (∀ h s b : ℝ, 0 < s → 0 < b →
      hsbOfRgb (rgbOfHsb h s b).1 (rgbOfHsb h s b).2.1 (rgbOfHsb h s b).2.2 =
        (HueArith.floorRem h 360, s, b)) ∧
    (∀ (text v : String) (r g b : ℝ), Colour.resolve text = .ok v →
      Colour.hexChannels? v = some (r, g, b) →
      rgbOfHsb (hsbOfRgb r g b).1 (hsbOfRgb r g b).2.1 (hsbOfRgb r g b).2.2 = (r, g, b)) := by
  refine ⟨fun r g b hr hg hb => rgbOfHsb_hsbOfRgb hr hg hb,
    fun h s b hs hb => hsbOfRgb_rgbOfHsb h hs hb, fun text v r g b _ hv => ?_⟩
  obtain ⟨hr, hg, hb⟩ := Colour.hexChannels?_nonneg hv
  exact rgbOfHsb_hsbOfRgb hr hg hb

end Hsba

end ShapeGrammar
