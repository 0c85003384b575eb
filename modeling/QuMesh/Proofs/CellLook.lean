import QuMesh.Terminal.Html

/-!
# How a cell looks

The style of a `span` is read back, declaration by declaration, to the look it
gives to the text under it: two colors, bold, underline. A cell has a look of
its own, which speaks of its colors and attributes only and of no style text,
and reading the style that `lineHtml` writes for the cell comes back to it.

A color is read from its six digits. The colors of the palette are stated as
numbers, the cube and the ramp by their arithmetic.
-/

namespace QuMesh.Terminal

/-! ## Looks -/

structure Rgb where
  red : Nat
  green : Nat
  blue : Nat
  deriving DecidableEq, Repr

/-- `0xRRGGBB` -/
def Rgb.ofNat (n : Nat) : Rgb :=
  ⟨n / 0x10000, n / 0x100 % 0x100, n % 0x100⟩

/-- Where there is no color, that of the parent is inherited. -/
structure Look where
  fg : Option Rgb := none
  bg : Option Rgb := none
  bold : Bool := false
  underline : Bool := false
  deriving DecidableEq, Repr

/-- The sixteen colors that are not computed. -/
def baseColors : List Nat :=
  [0x0E0F12, 0xE25555, 0x5EE08A, 0xE0C46C,
    0x5BB1F0, 0xC58CF0, 0x5EE0D8, 0xC8CBD1,
    0x3A3D45, 0xFF7878, 0x7CF4A8, 0xFFD888,
    0x7DC8FF, 0xD9A8FF, 0x7CFFF4, 0xFFFFFF]

/-- A side of the cube has six levels: black, and five steps of 40 up to 255. -/
def cubeLevel (n : Nat) : Nat := if n = 0 then 0 else 55 + 40 * n

/-- The palette of 256. -/
def paletteColor (i : Nat) : Rgb :=
  if i < 16 then .ofNat (baseColors.getD i 0)
  else if i < 232 then
    ⟨cubeLevel ((i - 16) / 36), cubeLevel ((i - 16) / 6 % 6),
      cubeLevel ((i - 16) % 6)⟩
  else
    ⟨8 + 10 * (i - 232), 8 + 10 * (i - 232), 8 + 10 * (i - 232)⟩

/-- The color of an index; `0xFF` is the default, which is no color. -/
def colorOf (idx : UInt8) : Option Rgb :=
  if idx = 0xFF then none else some (paletteColor idx.toNat)

/-- The look of a cell: reverse puts each color in the other's place. -/
def Cell.look (c : Cell) : Look where
  fg := if c.attrs &&& attrReverse = 0 then colorOf c.fg else colorOf c.bg
  bg := if c.attrs &&& attrReverse = 0 then colorOf c.bg else colorOf c.fg
  bold := c.attrs &&& attrBold ≠ 0
  underline := c.attrs &&& attrUnderline ≠ 0

/-! ## A reader of styles -/

def hexValue (u : UInt16) : Option Nat :=
  if 0x30 ≤ u ∧ u ≤ 0x39 then some (u.toNat - 0x30)
  else if 0x41 ≤ u ∧ u ≤ 0x46 then some (u.toNat - 0x37)
  else none

def hexByte (high low : UInt16) : Option Nat := do
  return 16 * (← hexValue high) + (← hexValue low)

/-- `#RRGGBB` -/
def readColor : List UInt16 → Option Rgb
  | [hash, r, r', g, g', b, b'] =>
      if hash = 0x23 then do
        return ⟨← hexByte r r', ← hexByte g g', ← hexByte b b'⟩
      else none
  | _ => none

/-- One declaration, `name:value`. -/
def Look.declare (look : Look) (text : List UInt16) : Option Look :=
  if text.take 6 = units "color:" then
    (readColor (text.drop 6)).map fun color => { look with fg := some color }
  else if text.take 17 = units "background-color:" then
    (readColor (text.drop 17)).map fun color => { look with bg := some color }
  else if text = units "font-weight:bold" then some { look with bold := true }
  else if text = units "text-decoration:underline" then
    some { look with underline := true }
  else none

/-- The look so far, and the declaration that is open. -/
structure StyleReader where
  look : Look := {}
  text : List UInt16 := []
  deriving DecidableEq, Repr

/-- A semicolon ends a declaration. -/
def StyleReader.step (r : StyleReader) (u : UInt16) : Option StyleReader :=
  if u = 0x3B then (r.look.declare r.text).map fun look => { look }
  else some { r with text := r.text ++ [u] }

/-- The look that a style gives, if it is one of known declarations. -/
def readLook (style : List UInt16) : Option Look :=
  match style.foldlM StyleReader.step {} with
  | some { look, text := [] } => some look
  | _ => none

/-! ## Colors -/

/-- A digit of `%02X`. -/
theorem hexValue_digit :
    ∀ n < 16, hexValue (UInt16.ofNat (Nat.digitChar n).toUpper.toNat) =
      some n := by
  decide

theorem hexByte_digits {v : Nat} (hv : v < 256) :
    ∃ high low, (hexDigits v).map (fun c => UInt16.ofNat c.toNat) =
      [high, low] ∧ hexByte high low = some v := by
  refine ⟨_, _, rfl, ?_⟩
  have hhigh := hexValue_digit (v / 16) (by omega)
  have hlow := hexValue_digit (v % 16) (by omega)
  have hv' : 16 * (v / 16) + v % 16 = v := Nat.div_add_mod v 16
  simp only [hexByte, hhigh, hlow, Option.bind_eq_bind, Option.bind_some,
    Option.pure_def, hv']

theorem readColor_hexColor {r g b : Nat} (hr : r < 256) (hg : g < 256)
    (hb : b < 256) : readColor (units (hexColor r g b)) = some ⟨r, g, b⟩ := by
  obtain ⟨r₁, r₀, hrDigits, hrValue⟩ := hexByte_digits hr
  obtain ⟨g₁, g₀, hgDigits, hgValue⟩ := hexByte_digits hg
  obtain ⟨b₁, b₀, hbDigits, hbValue⟩ := hexByte_digits hb
  have hunits : units (hexColor r g b) = [0x23, r₁, r₀, g₁, g₀, b₁, b₀] := by
    rw [units, hexColor, String.toList_ofList, List.map_cons, List.map_append,
      List.map_append, hrDigits, hgDigits, hbDigits]
    rfl
  rw [hunits, readColor, if_pos rfl, hrValue, hgValue, hbValue]
  rfl

theorem paletteSteps_level :
    ∀ n < 6, paletteSteps.getD n 0 = cubeLevel n := by
  decide

theorem cubeLevel_lt {n : Nat} (hn : n < 6) : cubeLevel n < 256 := by
  unfold cubeLevel
  split <;> omega

/-- The texts of the palette are its colors. -/
theorem readColor_palette (idx : UInt8) :
    readColor (units (paletteEntry idx)) = some (paletteColor idx.toNat) := by
  have hidx := UInt8.toNat_lt idx
  unfold paletteEntry paletteColor
  dsimp only
  by_cases hbase : idx.toNat < 16
  · have hall : ∀ i < 16, readColor (units (paletteBase.getD i "")) =
        some (.ofNat (baseColors.getD i 0)) := by
      decide
    rw [if_pos hbase, if_pos hbase]
    exact hall _ hbase
  rw [if_neg hbase, if_neg hbase]
  by_cases hcube : idx.toNat < 232
  · have hred : (idx.toNat - 16) / 36 < 6 := by omega
    have hgreen : (idx.toNat - 16) / 6 % 6 < 6 := by omega
    have hblue : (idx.toNat - 16) % 6 < 6 := by omega
    rw [if_pos hcube, if_pos hcube, paletteSteps_level _ hred,
      paletteSteps_level _ hgreen, paletteSteps_level _ hblue]
    exact readColor_hexColor (cubeLevel_lt hred) (cubeLevel_lt hgreen)
      (cubeLevel_lt hblue)
  · have hgray : 8 + 10 * (idx.toNat - 232) < 256 := by omega
    rw [if_neg hcube, if_neg hcube, Nat.mul_comm (idx.toNat - 232)]
    exact readColor_hexColor hgray hgray hgray

/-! ## Declarations -/

variable {look look' look'' : Look} {text : List UInt16}

/-- From one look to another, a style of whole declarations. -/
def Declares (look : Look) (style : List UInt16) (look' : Look) : Prop :=
  style.foldlM StyleReader.step { look } = some { look := look' }

theorem Declares.nil (look : Look) : Declares look [] look := rfl

theorem Declares.append {a b : List UInt16} (ha : Declares look a look')
    (hb : Declares look' b look'') : Declares look (a ++ b) look'' := by
  unfold Declares at *
  rw [List.foldlM_append, ha]
  exact hb

theorem read_open_declaration (h : 0x3B ∉ text) (acc : List UInt16) :
    text.foldlM StyleReader.step { look, text := acc } =
      some { look, text := acc ++ text } := by
  induction text generalizing acc with
  | nil =>
      rw [List.append_nil]
      rfl
  | cons u text ih =>
      have hu : u ≠ 0x3B := fun hu => h (hu ▸ List.mem_cons_self)
      have hstep : StyleReader.step { look, text := acc } u =
          some { look, text := acc ++ [u] } := if_neg hu
      have hrest := ih (fun hmem => h (List.mem_cons_of_mem _ hmem)) (acc ++ [u])
      rw [List.append_assoc, List.singleton_append] at hrest
      rw [List.foldlM_cons, hstep]
      exact hrest

/-- A declaration and its semicolon. -/
theorem Declares.one (h : 0x3B ∉ text) (hlook : look.declare text = some look') :
    Declares look (text ++ [0x3B]) look' := by
  unfold Declares
  rw [List.foldlM_append, read_open_declaration h []]
  show [0x3B].foldlM StyleReader.step { look, text := text } = _
  rw [List.foldlM_cons, StyleReader.step, if_pos rfl, hlook]
  rfl

theorem Declares.ite {p : Prop} [Decidable p] (h : p → Declares look text look')
    (hnot : ¬p → look' = look) :
    Declares look (if p then text else []) look' := by
  split
  · next hp => exact h hp
  · next hp => exact hnot hp ▸ Declares.nil look

/-! ## The style of a cell -/

/-- The units of a color are its mark and digits. -/
theorem readColor_units {color : Rgb} (h : readColor text = some color) :
    ∀ u ∈ text, u = 0x23 ∨ ∃ n, hexValue u = some n := by
  have hbyte {a b : UInt16} {n : Nat} (h : hexByte a b = some n) :
      (∃ n, hexValue a = some n) ∧ ∃ n, hexValue b = some n := by
    obtain ⟨high, hhigh, h⟩ := Option.bind_eq_some_iff.mp h
    obtain ⟨low, hlow, -⟩ := Option.bind_eq_some_iff.mp h
    exact ⟨⟨high, hhigh⟩, low, hlow⟩
  unfold readColor at h
  split at h
  · next hash r r' g g' b b' =>
    split at h
    · next hhash =>
      obtain ⟨red, hred, h⟩ := Option.bind_eq_some_iff.mp h
      obtain ⟨green, hgreen, h⟩ := Option.bind_eq_some_iff.mp h
      obtain ⟨blue, hblue, -⟩ := Option.bind_eq_some_iff.mp h
      simp only [List.forall_mem_cons]
      exact ⟨.inl hhash, .inr (hbyte hred).1, .inr (hbyte hred).2,
        .inr (hbyte hgreen).1, .inr (hbyte hgreen).2, .inr (hbyte hblue).1,
        .inr (hbyte hblue).2, fun _ hu => absurd hu List.not_mem_nil⟩
    · cases h
  · cases h

/-- A unit that is no mark and no digit is in no text of the palette. -/
theorem not_mem_palette {u : UInt16} (hmark : u ≠ 0x23)
    (hdigit : hexValue u = none) (idx : UInt8) : u ∉ units (paletteEntry idx) := by
  intro hu
  rcases readColor_units (readColor_palette idx) u hu with h | ⟨n, hn⟩
  · exact hmark h
  · rw [hdigit] at hn
    cases hn

theorem declare_color (look : Look) (idx : UInt8) :
    look.declare (units "color:" ++ units (paletteEntry idx)) =
      some { look with fg := some (paletteColor idx.toNat) } := by
  have hlength : (units "color:").length = 6 := by decide
  rw [Look.declare, List.take_left' hlength, if_pos rfl,
    List.drop_left' hlength, readColor_palette, Option.map_some]

theorem declare_background (look : Look) (idx : UInt8) :
    look.declare (units "background-color:" ++ units (paletteEntry idx)) =
      some { look with bg := some (paletteColor idx.toNat) } := by
  have hlength : (units "background-color:").length = 17 := by decide
  have hother : (units "background-color:" ++ units (paletteEntry idx)).take 6 ≠
      units "color:" := by
    rw [List.take_append_of_le_length (by omega)]
    decide
  rw [Look.declare, if_neg hother, List.take_left' hlength, if_pos rfl,
    List.drop_left' hlength, readColor_palette, Option.map_some]

/-- The declaration of a color, which is left out for the default. -/
theorem declares_palette (label : List UInt16) (set : Option Rgb → Look)
    (hlabel : 0x3B ∉ label) (hdefault : set none = look)
    (hset : ∀ idx, look.declare (label ++ units (paletteEntry idx)) =
      some (set (some (paletteColor idx.toNat)))) (idx : UInt8) :
    Declares look
      (if idx ≠ 0xFF then label ++ units (paletteEntry idx) ++ units ";" else [])
      (set (colorOf idx)) := by
  have hend : units ";" = [0x3B] := by decide
  rw [hend]
  refine Declares.ite (fun hidx => ?_) fun hidx => ?_
  · rw [colorOf, if_neg hidx]
    refine Declares.one (fun hmem => ?_) (hset idx)
    rcases List.mem_append.mp hmem with hmem | hmem
    · exact hlabel hmem
    · exact not_mem_palette (by decide) (by decide) idx hmem
  · rw [colorOf, if_pos (Decidable.not_not.mp hidx), hdefault]

theorem declares_bold (look : Look) :
    Declares look (units "font-weight:bold;") { look with bold := true } := by
  have hend : units "font-weight:bold;" =
      units "font-weight:bold" ++ [0x3B] := by
    decide
  rw [hend]
  refine Declares.one (by decide) ?_
  rw [Look.declare, if_neg (by decide), if_neg (by decide), if_pos rfl]

theorem declares_underline (look : Look) :
    Declares look (units "text-decoration:underline;")
      { look with underline := true } := by
  have hend : units "text-decoration:underline;" =
      units "text-decoration:underline" ++ [0x3B] := by
    decide
  rw [hend]
  refine Declares.one (by decide) ?_
  rw [Look.declare, if_neg (by decide), if_neg (by decide),
    if_neg (by decide), if_pos rfl]

/-- A declaration that is there or not, for a flag that was not yet set. -/
theorem declares_flag {p : Prop} [Decidable p] (set : Bool → Look)
    (hdefault : set false = look) (h : Declares look text (set true)) :
    Declares look (if p then text else []) (set p) := by
  refine Declares.ite (fun hp => ?_) fun hp => ?_
  · rw [decide_eq_true hp]
    exact h
  · rw [decide_eq_false hp, hdefault]

/-- The declarations in their order, for any colors and attributes. -/
theorem declares_styles (fgIdx bgIdx : UInt8) (bold underline : Prop)
    [Decidable bold] [Decidable underline] :
    Declares {}
      ((if fgIdx ≠ 0xFF then
          units "color:" ++ units (paletteEntry fgIdx) ++ units ";" else []) ++
        (if bgIdx ≠ 0xFF then
          units "background-color:" ++ units (paletteEntry bgIdx) ++ units ";"
          else []) ++
        (if bold then units "font-weight:bold;" else []) ++
        (if underline then units "text-decoration:underline;" else []))
      { fg := colorOf fgIdx, bg := colorOf bgIdx, bold, underline } := by
  have hfg := declares_palette (units "color:") (fun fg => { fg })
    (by decide) rfl (declare_color {}) fgIdx
  generalize colorOf fgIdx = fg at hfg ⊢
  have hbg := declares_palette (units "background-color:")
    (fun bg => { fg, bg }) (by decide) rfl (declare_background { fg }) bgIdx
  generalize colorOf bgIdx = bg at hbg ⊢
  have hbold := declares_flag (p := bold) (fun bold => { fg, bg, bold }) rfl
    (declares_bold { fg, bg })
  generalize decide bold = bold at hbold ⊢
  exact ((hfg.append hbg).append hbold).append
    (declares_flag (fun underline => { fg, bg, bold, underline }) rfl
      (declares_underline { fg, bg, bold }))

/-- The style of a cell gives the look of the cell. -/
theorem readLook_styles (c : Cell) : readLook c.styles = some c.look := by
  have hread : Declares {} c.styles c.look := by
    by_cases hreverse : c.attrs &&& attrReverse = 0
    · have hread := declares_styles c.fg c.bg (c.attrs &&& attrBold ≠ 0)
        (c.attrs &&& attrUnderline ≠ 0)
      simpa only [Cell.styles, Cell.look, hreverse, ne_eq, not_true_eq_false,
        if_true, if_false] using hread
    · have hread := declares_styles c.bg c.fg (c.attrs &&& attrBold ≠ 0)
        (c.attrs &&& attrUnderline ≠ 0)
      simpa only [Cell.styles, Cell.look, hreverse, ne_eq, not_false_eq_true,
        if_true, if_false] using hread
  rw [readLook, hread]

end QuMesh.Terminal
