import QuMesh.Proofs.TerminalGrid

/-!
# The groups of an SGR sequence

A parameter list of SGR is a sequence of groups: a code, or a color that takes
parameters along, and at its end perhaps a color that is cut off. The types
below hold nothing else. What a group should do is `SgrGroup.apply`: a code or
a color is set, and a color of an unknown mode sets nothing, with whatever
arguments it came.

The loop advances its index by what `consumeExtendedColor` takes, so the codes
it applies stand at `sgrHeads`, `handleSgrLoop_heads`. These are the beginnings
of the groups as long as a color takes its whole group along. It does, but for
one case: behind an unknown mode it takes the mode and nothing else, and the
first argument is the next code.
-/

namespace QuMesh.Terminal

open QuMesh.Lib TerminalScreen

/-! ## Groups -/

inductive Side
  | fg
  | bg
  deriving DecidableEq, Repr

def Side.code : Side → Int
  | .fg => 38
  | .bg => 48

def Side.set : Side → UInt8 → TerminalScreen → TerminalScreen
  | .fg => setFg
  | .bg => setBg

/-- A group that is all there. -/
inductive SgrGroup
  | code (c : Int) (plain : c ≠ 38 ∧ c ≠ 48)
  | indexed (side : Side) (idx : Int)
  | rgb (side : Side) (r g b : Int)
  | unknown (side : Side) (mode : Int) (args : List Int)
      (other : mode ≠ 5 ∧ mode ≠ 2)

/-- What is left of a color that is cut off. -/
inductive Cut
  | bare
  | indexed
  | rgb (args : List Int) (short : args.length < 3)

structure SgrList where
  groups : List SgrGroup
  cut : Option (Side × Cut) := none

namespace SgrGroup

def params : SgrGroup → List Int
  | .code c _ => [c]
  | .indexed side idx => [side.code, 5, idx]
  | .rgb side r g b => [side.code, 2, r, g, b]
  | .unknown side mode args _ => side.code :: mode :: args

/-- The arguments of an unknown mode. -/
def extra : SgrGroup → List Int
  | .unknown _ _ args _ => args
  | _ => []

/-- The color a group sets, if it sets one with arguments. -/
def side : SgrGroup → Option Side
  | .indexed side _ | .rgb side _ _ _ => some side
  | _ => none

/-- What the group should do. -/
def apply : SgrGroup → TerminalScreen → Except Fault TerminalScreen
  | .code c _, s => .ok (s.handleSgrCode c)
  | .indexed side idx, s =>
      .ok (side.set (UInt8.ofNat (clamp idx 0 255).toNat) s)
  | .rgb side r g b, s => do
      let idx ← quantizeRgbTo256 r g b
      return side.set idx s
  | .unknown _ _ _ _, s => .ok s

end SgrGroup

def Cut.params : Cut → List Int
  | .bare => []
  | .indexed => [5]
  | .rgb args _ => 2 :: args

namespace SgrList

def cutParams (l : SgrList) : List Int :=
  match l.cut with
  | none => []
  | some (side, cut) => side.code :: cut.params

def params (l : SgrList) : List Int :=
  l.groups.flatMap SgrGroup.params ++ l.cutParams

/-- One group after the other; what is cut off does nothing. No group at all
stands for the code zero. -/
def apply (l : SgrList) (s : TerminalScreen) : Except Fault TerminalScreen :=
  if l.params = [] then .ok s.resetAttributes
  else l.groups.foldlM (fun s g => g.apply s) s

/-- Where the groups begin, from `i` on. -/
def startsFrom (cut : Option (Side × Cut)) : Nat → List SgrGroup → List Nat
  | i, [] => if cut.isSome then [i] else []
  | i, g :: groups => i :: startsFrom cut (i + g.params.length) groups

def starts (l : SgrList) : List Nat := startsFrom l.cut 0 l.groups

end SgrList

/-! ## Where the loop reads a code -/

/-- The values of the loop's index, from `i` on. -/
def sgrHeads : Nat → Nat → List Int → List Nat
  | 0, _, _ => []
  | _ + 1, _, [] => []
  | fuel + 1, i, code :: params =>
      if code = 38 ∨ code = 48 then
        match consumeExtendedColor params with
        | .ok (_, rest) =>
            i :: sgrHeads fuel (i + 1 + (params.length - rest.length)) rest
        | .error _ => [i]
      else i :: sgrHeads fuel (i + 1) params

/-- The body of the loop at an index. -/
def sgrStep (params : List Int) (s : TerminalScreen) (i : Nat) :
    Except Fault TerminalScreen :=
  match params.drop i with
  | [] => .ok s
  | code :: rest =>
      if code = 38 then do
        let (idx, _) ← consumeExtendedColor rest
        return idx.elim s (setFg · s)
      else if code = 48 then do
        let (idx, _) ← consumeExtendedColor rest
        return idx.elim s (setBg · s)
      else .ok (s.handleSgrCode code)

/-- What a color leaves is the end of what it found. -/
theorem consumeExtendedColor_drop {params rest : List Int} {idx : Option UInt8}
    (h : consumeExtendedColor params = .ok (idx, rest)) :
    rest = params.drop (params.length - rest.length) := by
  have hsuffix : rest <:+ params := by
    match params with
    | [] =>
        cases h
        exact List.suffix_rfl
    | mode :: tail =>
        unfold consumeExtendedColor at h
        dsimp only at h
        split at h
        · split at h
          · cases h
            exact (List.suffix_cons _ _).trans (List.suffix_cons _ _)
          · cases h
            exact List.nil_suffix
        · split at h
          · split at h
            · next r g b behind =>
                obtain ⟨color, -, hcolor⟩ := bind_ok h
                cases hcolor
                exact ⟨[mode, r, g, b], rfl⟩
            · cases h
              exact List.nil_suffix
          · cases h
            exact List.suffix_cons _ _
  obtain ⟨front, rfl⟩ := hsuffix
  simp

/-- The loop applies the codes at its heads, and nothing else. -/
theorem handleSgrLoop_heads (all : List Int) (fuel : Nat) {i : Nat}
    {params : List Int} (hat : all.drop i = params) (s : TerminalScreen) :
    handleSgrLoop fuel params s =
      (sgrHeads fuel i params).foldlM (sgrStep all) s := by
  induction fuel generalizing i params s with
  | zero => rfl
  | succ fuel ih =>
      match params with
      | [] => rfl
      | code :: params =>
          have hnext : all.drop (i + 1) = params := by
            rw [← List.drop_drop, hat]
            rfl
          have hcolor : ∀ f : UInt8 → TerminalScreen → TerminalScreen,
              sgrStep all s i = (consumeExtendedColor params >>= fun p =>
                .ok (p.1.elim s (f · s))) →
              (consumeExtendedColor params >>= fun p =>
                handleSgrLoop fuel p.2 (p.1.elim s (f · s))) =
              ((match consumeExtendedColor params with
                | .ok (_, rest) => i :: sgrHeads fuel
                    (i + 1 + (params.length - rest.length)) rest
                | .error _ => [i]).foldlM (sgrStep all) s) := by
            intro f hstep
            cases hconsume : consumeExtendedColor params with
            | error e =>
                rw [hconsume] at hstep
                simp only [List.foldlM_cons, hstep]
                rfl
            | ok p =>
                obtain ⟨idx, rest⟩ := p
                rw [hconsume] at hstep
                have hrest : all.drop (i + 1 + (params.length - rest.length)) =
                    rest := by
                  rw [← List.drop_drop, hnext]
                  exact (consumeExtendedColor_drop hconsume).symm
                simp only [List.foldlM_cons, hstep, ok_bind]
                exact ih hrest _
          rw [handleSgrLoop, sgrHeads]
          by_cases h38 : code = 38
          · rw [if_pos h38, if_pos (Or.inl h38)]
            refine hcolor setFg ?_
            rw [sgrStep, hat]
            exact if_pos h38
          · by_cases h48 : code = 48
            · rw [if_neg h38, if_pos h48, if_pos (Or.inr h48)]
              refine hcolor setBg ?_
              rw [sgrStep, hat]
              exact (if_neg h38).trans (if_pos h48)
            · have hstep : sgrStep all s i = .ok (s.handleSgrCode code) := by
                rw [sgrStep, hat]
                exact (if_neg h38).trans (if_neg h48)
              rw [if_neg h38, if_neg h48, if_neg (by simp [h38, h48]),
                List.foldlM_cons, hstep, ok_bind]
              exact ih hnext _

/-! ## Colors that are all there -/

/-- An `int`. -/
def IsInt (v : Int) : Prop := intMin ≤ v ∧ v ≤ intMax

theorem cubeStep_int {v : Int} (h : IsInt v) : ∃ w, cubeStep v = .ok w := by
  obtain ⟨-, hmax⟩ := h
  have hlow : intMin ≤ 80 := by decide
  unfold cubeStep
  split
  · exact ⟨0, rfl⟩
  · split
    · exact ⟨1, rfl⟩
    · rw [int32_eq (by omega) (by omega), ok_bind]
      exact ⟨_, rfl⟩

theorem quantizeRgbTo256_int {r g b : Int} (hr : IsInt r) (hg : IsInt g)
    (hb : IsInt b) : ∃ idx, quantizeRgbTo256 r g b = .ok idx := by
  obtain ⟨ri, hri⟩ := cubeStep_int hr
  obtain ⟨gi, hgi⟩ := cubeStep_int hg
  obtain ⟨bi, hbi⟩ := cubeStep_int hb
  have hmin : intMin ≤ 0 := by decide
  have hmax : intMax = 2147483647 := rfl
  have hclamp : ∀ x, 0 ≤ clamp x 0 5 ∧ clamp x 0 5 ≤ 5 := by
    intro x
    rw [clamp]
    split
    · omega
    · split <;> omega
  have hr5 := hclamp ri
  have hg5 := hclamp gi
  have hb5 := hclamp bi
  unfold quantizeRgbTo256
  rw [hri, hgi, hbi]
  simp only [ok_bind]
  rw [int32_eq (by omega) (by omega), ok_bind]
  exact ⟨_, rfl⟩

theorem Side.code_color (side : Side) : side.code = 38 ∨ side.code = 48 := by
  cases side with
  | fg => exact Or.inl rfl
  | bg => exact Or.inr rfl

/-- A color at the front of the loop. -/
theorem handleSgrLoop_color (side : Side) (fuel : Nat) (params : List Int)
    (s : TerminalScreen) :
    handleSgrLoop (fuel + 1) (side.code :: params) s =
      (consumeExtendedColor params >>= fun p =>
        handleSgrLoop fuel p.2 (p.1.elim s (side.set · s))) := by
  cases side <;> rfl

theorem sgrHeads_color (side : Side) (fuel i : Nat) {params rest : List Int}
    {idx : Option UInt8} (h : consumeExtendedColor params = .ok (idx, rest)) :
    sgrHeads (fuel + 1) i (side.code :: params) =
      i :: sgrHeads fuel (i + 1 + (params.length - rest.length)) rest := by
  rw [sgrHeads, if_pos side.code_color, h]

/-! ## Group after group -/

/-- A group that comes without arguments of an unknown mode is taken whole. -/
theorem group_taken {g : SgrGroup} (hint : ∀ v ∈ g.params, IsInt v)
    (hextra : g.extra = []) (fuel : Nat) (rest : List Int) :
    (∀ s, handleSgrLoop (fuel + 1) (g.params ++ rest) s =
      (g.apply s >>= handleSgrLoop fuel rest)) ∧
    ∀ i, sgrHeads (fuel + 1) i (g.params ++ rest) =
      i :: sgrHeads fuel (i + g.params.length) rest := by
  cases g with
  | code c plain =>
      refine ⟨fun s => ?_, fun i => ?_⟩
      · show handleSgrLoop (fuel + 1) (c :: rest) s = _
        rw [handleSgrLoop, if_neg plain.1, if_neg plain.2]
        rfl
      · show sgrHeads (fuel + 1) i (c :: rest) = _
        rw [sgrHeads, if_neg (by simp [plain])]
        rfl
  | indexed side idx =>
      have hconsume : consumeExtendedColor (5 :: idx :: rest) =
          .ok (some (UInt8.ofNat (clamp idx 0 255).toNat), rest) := rfl
      refine ⟨fun s => ?_, fun i => ?_⟩
      · show handleSgrLoop (fuel + 1) (side.code :: 5 :: idx :: rest) s = _
        rw [handleSgrLoop_color, hconsume]
        rfl
      · show sgrHeads (fuel + 1) i (side.code :: 5 :: idx :: rest) = _
        rw [sgrHeads_color side fuel i hconsume]
        simp only [List.length_cons, SgrGroup.params, List.length_nil]
        congr 2
        omega
  | rgb side r g b =>
      simp only [SgrGroup.params, List.forall_mem_cons] at hint
      obtain ⟨-, -, hr, hg, hb, -⟩ := hint
      obtain ⟨idx, hidx⟩ := quantizeRgbTo256_int hr hg hb
      have hconsume : consumeExtendedColor (2 :: r :: g :: b :: rest) =
          .ok (some idx, rest) := by
        show (quantizeRgbTo256 r g b >>= fun idx => .ok (some idx, rest)) = _
        rw [hidx]
        rfl
      refine ⟨fun s => ?_, fun i => ?_⟩
      · show handleSgrLoop (fuel + 1) (side.code :: 2 :: r :: g :: b :: rest) s =
          _
        rw [handleSgrLoop_color, hconsume, SgrGroup.apply, hidx]
        rfl
      · show sgrHeads (fuel + 1) i (side.code :: 2 :: r :: g :: b :: rest) = _
        rw [sgrHeads_color side fuel i hconsume]
        simp only [List.length_cons, SgrGroup.params, List.length_nil]
        congr 2
        omega
  | unknown side mode args other =>
      have hargs : args = [] := hextra
      subst hargs
      have hconsume : consumeExtendedColor (mode :: rest) =
          .ok (none, rest) := by
        unfold consumeExtendedColor
        dsimp only
        rw [if_neg other.1, if_neg other.2]
      refine ⟨fun s => ?_, fun i => ?_⟩
      · show handleSgrLoop (fuel + 1) (side.code :: mode :: rest) s = _
        rw [handleSgrLoop_color, hconsume]
        rfl
      · show sgrHeads (fuel + 1) i (side.code :: mode :: rest) = _
        rw [sgrHeads_color side fuel i hconsume]
        simp only [List.length_cons, SgrGroup.params, List.length_nil]
        congr 2
        omega

/-- A color that is cut off takes what there is. -/
theorem consume_cut (cut : Cut) :
    consumeExtendedColor cut.params = .ok (none, []) := by
  cases cut with
  | bare => rfl
  | indexed => rfl
  | rgb args short =>
      match args, short with
      | [], _ => rfl
      | [_], _ => rfl
      | [_, _], _ => rfl

theorem handleSgrLoop_end (fuel : Nat) (s : TerminalScreen) :
    handleSgrLoop fuel [] s = .ok s := by
  cases fuel <;> rfl

theorem sgrHeads_end (fuel i : Nat) : sgrHeads fuel i [] = [] := by
  cases fuel <;> rfl

theorem length_params_pos (g : SgrGroup) : 0 < g.params.length := by
  cases g <;> simp [SgrGroup.params]

/-- The loop over groups that are all taken whole. -/
theorem groups_taken (l : SgrList) {groups : List SgrGroup} {fuel : Nat}
    (hint : ∀ g ∈ groups, ∀ v ∈ g.params, IsInt v)
    (hextra : ∀ g ∈ groups, g.extra = [])
    (hfuel : (groups.flatMap SgrGroup.params ++ l.cutParams).length ≤ fuel) :
    (∀ s, handleSgrLoop fuel (groups.flatMap SgrGroup.params ++ l.cutParams) s =
      groups.foldlM (fun s g => g.apply s) s) ∧
    ∀ i, sgrHeads fuel i (groups.flatMap SgrGroup.params ++ l.cutParams) =
      SgrList.startsFrom l.cut i groups := by
  induction groups generalizing fuel with
  | nil =>
      rw [List.flatMap_nil, List.nil_append] at hfuel ⊢
      rw [SgrList.cutParams] at hfuel ⊢
      cases hcut : l.cut with
      | none => exact ⟨fun s => handleSgrLoop_end fuel s, fun i => sgrHeads_end fuel i⟩
      | some c =>
          obtain ⟨side, cut⟩ := c
          rw [hcut] at hfuel
          cases fuel with
          | zero => simp at hfuel
          | succ fuel =>
              refine ⟨fun s => ?_, fun i => ?_⟩
              · dsimp only
                rw [handleSgrLoop_color, consume_cut]
                exact handleSgrLoop_end fuel s
              · dsimp only
                rw [sgrHeads_color side fuel i (consume_cut cut), sgrHeads_end]
                rfl
  | cons g groups ih =>
      rw [List.forall_mem_cons] at hint hextra
      have hpos := length_params_pos g
      rw [List.flatMap_cons, List.append_assoc] at hfuel ⊢
      rw [List.length_append] at hfuel
      cases fuel with
      | zero => omega
      | succ fuel =>
          obtain ⟨hloop, hheads⟩ := group_taken hint.1 hextra.1 fuel
            (groups.flatMap SgrGroup.params ++ l.cutParams)
          obtain ⟨ihloop, ihheads⟩ := @ih fuel hint.2 hextra.2 (by omega)
          refine ⟨fun s => ?_, fun i => ?_⟩
          · rw [hloop s, List.foldlM_cons]
            exact congrArg (g.apply s >>= ·) (funext ihloop)
          · rw [hheads i, ihheads, SgrList.startsFrom]

/-! ## Arguments that are read as codes -/

theorem startsFrom_ge (cut : Option (Side × Cut)) {i : Nat}
    {groups : List SgrGroup} :
    ∀ x ∈ SgrList.startsFrom cut i groups, i ≤ x := by
  induction groups generalizing i with
  | nil =>
      intro x hx
      rw [SgrList.startsFrom] at hx
      split at hx
      · exact Nat.le_of_eq (List.mem_singleton.mp hx).symm
      · cases hx
  | cons g groups ih =>
      intro x hx
      rcases List.mem_cons.mp hx with rfl | hx
      · exact Nat.le_refl _
      · exact Nat.le_of_add_right_le (ih x hx)

theorem mem_sgrHeads (fuel i : Nat) (c : Int) (params : List Int) :
    i ∈ sgrHeads (fuel + 1) i (c :: params) := by
  rw [sgrHeads]
  split
  · split <;> exact List.mem_cons_self
  · exact List.mem_cons_self

/-- The first argument of an unknown mode is read as a code. -/
theorem unknown_heads (side : Side) {mode : Int} (other : mode ≠ 5 ∧ mode ≠ 2)
    (fuel i : Nat) (rest : List Int) :
    sgrHeads (fuel + 1) i (side.code :: mode :: rest) =
      i :: sgrHeads fuel (i + 2) rest := by
  have hconsume : consumeExtendedColor (mode :: rest) = .ok (none, rest) := by
    unfold consumeExtendedColor
    dsimp only
    rw [if_neg other.1, if_neg other.2]
  rw [sgrHeads_color side fuel i hconsume]
  simp only [List.length_cons]
  congr 2
  omega

/-- Where the loop reads a code at the beginning of each group and nowhere
else, no unknown mode has arguments. -/
theorem no_extra (l : SgrList) {groups : List SgrGroup} {fuel i : Nat}
    (hint : ∀ g ∈ groups, ∀ v ∈ g.params, IsInt v)
    (hfuel : (groups.flatMap SgrGroup.params ++ l.cutParams).length ≤ fuel)
    (h : sgrHeads fuel i (groups.flatMap SgrGroup.params ++ l.cutParams) =
      SgrList.startsFrom l.cut i groups) :
    ∀ g ∈ groups, g.extra = [] := by
  induction groups generalizing fuel i with
  | nil => exact List.forall_mem_nil _
  | cons g groups ih =>
      rw [List.forall_mem_cons] at hint ⊢
      rw [List.flatMap_cons, List.append_assoc] at hfuel h
      rw [List.length_append] at hfuel
      have hpos := length_params_pos g
      obtain ⟨fuel, rfl⟩ : ∃ n, fuel = n + 1 := ⟨fuel - 1, by omega⟩
      by_cases hextra : g.extra = []
      · obtain ⟨-, hheads⟩ := group_taken hint.1 hextra fuel
          (groups.flatMap SgrGroup.params ++ l.cutParams)
        rw [hheads i, SgrList.startsFrom] at h
        exact ⟨hextra, ih hint.2 (by omega) (List.cons.inj h).2⟩
      · exfalso
        cases g with
        | code | indexed | rgb => exact hextra rfl
        | unknown side mode args other =>
            obtain ⟨a, args, rfl⟩ := List.exists_cons_of_ne_nil hextra
            simp only [SgrGroup.params, List.length_cons] at hfuel
            obtain ⟨fuel, rfl⟩ : ∃ n, fuel = n + 1 := ⟨fuel - 1, by omega⟩
            simp only [SgrGroup.params, List.cons_append] at h
            rw [unknown_heads side other, SgrList.startsFrom] at h
            have hmem := mem_sgrHeads fuel (i + 2) a
              (args ++ (groups.flatMap SgrGroup.params ++ l.cutParams))
            rw [(List.cons.inj h).2] at hmem
            have hge := startsFrom_ge _ _ hmem
            simp only [SgrGroup.params, List.length_cons] at hge
            omega

/-! ## The whole list -/

/-- What SGR should be for a list of groups: the groups one after the other,
each color its own alone, and a code read nowhere but at their beginnings. -/
structure Compositional (l : SgrList) : Prop where
  whole : ∀ s : TerminalScreen, s.handleSgr l.params = l.apply s
  own : ∀ g ∈ l.groups, ∀ side, g.side = some side →
    ∀ s s' : TerminalScreen, s.handleSgr g.params = .ok s' →
      ∃ idx, s' = side.set idx s
  codes : sgrHeads l.params.length 0 l.params = l.starts

theorem color_own {g : SgrGroup} (hint : ∀ v ∈ g.params, IsInt v) {side : Side}
    (hside : g.side = some side) {s s' : TerminalScreen}
    (h : s.handleSgr g.params = .ok s') : ∃ idx, s' = side.set idx s := by
  have hextra : g.extra = [] := by
    cases g with
    | unknown => cases hside
    | code | indexed | rgb => rfl
  have hpos := length_params_pos g
  have hne : g.params ≠ [] := List.ne_nil_of_length_pos hpos
  obtain ⟨n, hn⟩ : ∃ n, g.params.length = n + 1 :=
    ⟨g.params.length - 1, by omega⟩
  obtain ⟨hloop, -⟩ := group_taken hint hextra n []
  rw [handleSgr, if_neg hne, hn, ← List.append_nil g.params, hloop s] at h
  obtain ⟨t, ht, hend⟩ := bind_ok h
  rw [handleSgrLoop_end] at hend
  cases hend
  cases g with
  | code | unknown => cases hside
  | indexed side' idx =>
      cases hside
      cases ht
      exact ⟨_, rfl⟩
  | rgb side' r g b =>
      cases hside
      obtain ⟨idx, -, hset⟩ := bind_ok ht
      cases hset
      exact ⟨idx, rfl⟩

/-- SGR is compositional on exactly the lists in which no color of an unknown
mode has arguments. -/
theorem sgr_compositional_iff (l : SgrList) (hint : ∀ v ∈ l.params, IsInt v) :
    Compositional l ↔ ∀ g ∈ l.groups, g.extra = [] := by
  have hgroups : ∀ g ∈ l.groups, ∀ v ∈ g.params, IsInt v := by
    intro g hg v hv
    exact hint v (List.mem_append_left _ (List.mem_flatMap.mpr ⟨g, hg, hv⟩))
  constructor
  · intro h
    exact no_extra l hgroups (Nat.le_refl _) h.codes
  · intro hextra
    obtain ⟨hloop, hheads⟩ := groups_taken l hgroups hextra (Nat.le_refl _)
    refine ⟨fun s => ?_, ?_, hheads 0⟩
    · rw [handleSgr, SgrList.apply]
      split
      · rfl
      · exact hloop s
    · intro g hg side hside s s' h
      exact color_own (hgroups g hg) hside h

/-- Bold, a foreground of the palette, a background that is cut off. -/
theorem sgr_compositional_iff_colors :
    Compositional ⟨[.code 1 (by decide), .indexed .fg 196],
      some (.bg, .rgb [10, 20] (by decide))⟩ ↔
    ∀ g ∈ [SgrGroup.code 1 (by decide), .indexed .fg 196], g.extra = [] :=
  sgr_compositional_iff ⟨[.code 1 (by decide), .indexed .fg 196],
    some (.bg, .rgb [10, 20] (by decide))⟩ (by
      intro v hv
      simp [SgrList.params, SgrList.cutParams, SgrGroup.params, Side.code,
        Cut.params] at hv
      rw [IsInt, intMin, intMax]
      omega)

/-- A foreground of mode 7 with an argument: the argument sets bold. -/
theorem argument_applied :
    ¬Compositional ⟨[.unknown .fg 7 [1] (by decide)], none⟩ := by
  intro h
  have hwhole := h.whole {}
  have hbold : (match (({} : TerminalScreen).handleSgr [38, 7, 1]) with
      | .ok s => s.pen.attrs
      | .error _ => 0) = attrBold := by
    rfl
  have hplain : (match SgrList.apply ⟨[.unknown .fg 7 [1] (by decide)], none⟩ {}
      with
      | .ok s => s.pen.attrs
      | .error _ => 0) = 0 := by
    rfl
  rw [← hwhole] at hplain
  exact absurd (hbold.symm.trans hplain) (by decide)

end QuMesh.Terminal
