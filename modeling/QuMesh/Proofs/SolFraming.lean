import QuMesh.Lib.Watch
import QuMesh.Redir.Sol

/-!
# What a console shows, sends and leaves closed

Three things about a serial session. What it shows: the frames of a stream
come off the inbox whole and in order, however the stream was cut, and a
refused open is the one frame after which the loop stops short of the frames
behind it. What it sends: the pieces of the input, each in a frame that says
how long it is. What it leaves closed: `fail` closes the session whether or
not it was open, but only an accepted open sets `m_settingsSent`, so after a
failure that came first an accepted open is taken as the first one.
-/

namespace QuMesh.Redir.Sol

open QuMesh.Lib

/-! ## The frames of a stream -/

/-- A `0x21`, `0x29`, `0x2B` or `0x2A` of its own length. -/
def WellFormed (f : Bytes) : Prop :=
  (f.headD 0 = 0x21 ∧ f.length = 23) ∨ (f.headD 0 = 0x29 ∧ f.length = 10) ∨
    (f.headD 0 = 0x2B ∧ f.length = 8) ∨
      (f.headD 0 = 0x2A ∧ f.length = 10 + read16Le f 8)

/-- What a frame has to show. -/
def payload (f : Bytes) : Bytes := if f.headD 0 = 0x2A then f.drop 10 else []

/-- A `0x21` that is not a success. -/
def refuses (f : Bytes) : Bool := f.headD 0 == 0x21 && f.getD 9 0 != 0

/-- What the loop makes of a well-formed frame. -/
def inboundOf (f : Bytes) : Inbound :=
  if f.headD 0 = 0x21 then .openReply (f.getD 9 0)
  else if f.headD 0 = 0x2A then .displayData (f.drop 10)
  else if f.headD 0 = 0x2B then .keepalive
  else .settingsEcho

/-- What the session has shown. -/
def displayed (es : List Effect) : Bytes :=
  es.flatMap fun
    | .data bytes => bytes
    | _ => []

theorem displayed_append (es fs : List Effect) :
    displayed (es ++ fs) = displayed es ++ displayed fs :=
  List.flatMap_append

theorem WellFormed.pos {f : Bytes} (h : WellFormed f) : 8 ≤ f.length := by
  rcases h with ⟨-, h⟩ | ⟨-, h⟩ | ⟨-, h⟩ | ⟨-, h⟩ <;> omega

theorem headD_append {f : Bytes} (h : 0 < f.length) (rest : Bytes) :
    (f ++ rest).headD 0 = f.headD 0 := by
  cases f with
  | nil => cases h
  | cons b f => rfl

theorem headD_take {f : Bytes} {k : Nat} (hk : 0 < k) (hf : 0 < f.length) :
    (f.take k).headD 0 = f.headD 0 := by
  obtain ⟨k, rfl⟩ := Nat.exists_eq_succ_of_ne_zero (Nat.pos_iff_ne_zero.mp hk)
  cases f with
  | nil => cases hf
  | cons b f => rfl

namespace Session

/-- A whole frame is taken whatever is behind it. -/
theorem nextFrame_append {f : Bytes} (h : WellFormed f) (rest : Bytes) :
    nextFrame (f ++ rest) = some (inboundOf f, f.length) := by
  have hpos := h.pos
  have hhead := headD_append (by omega : 0 < f.length) rest
  have hlen : (f ++ rest).length = f.length + rest.length :=
    List.length_append
  rw [nextFrame, inboundOf]
  simp only [tryParseSolOpenReply, tryParseSolDisplayData, hhead]
  rcases h with ⟨htag, h⟩ | ⟨htag, h⟩ | ⟨htag, h⟩ | ⟨htag, h⟩
  · rw [htag, if_pos rfl, if_pos rfl, if_neg (by omega),
      if_neg (by simp), if_neg (by omega), h,
      List.getD_append _ _ _ _ (by omega)]
    rfl
  · rw [htag, if_neg (by decide), if_neg (by decide), if_neg (by decide),
      if_pos rfl, if_neg (by omega), if_neg (by decide), if_neg (by decide),
      if_neg (by decide), h]
  · rw [htag, if_neg (by decide), if_neg (by decide), if_pos rfl,
      if_neg (by omega), if_neg (by decide), if_neg (by decide), if_pos rfl, h]
  · have hn : read16Le (f ++ rest) 8 = read16Le f 8 :=
      read16Le_append (by omega) rest
    have hdata : ((f ++ rest).drop 10).take (read16Le f 8) = f.drop 10 := by
      rw [List.drop_append_of_le_length (by omega)]
      exact List.take_left' (by rw [List.length_drop]; omega)
    rw [htag, if_neg (by decide), if_pos rfl, if_neg (by omega),
      if_neg (by simp), if_neg (by omega), hn, if_neg (by omega), hdata, h,
      if_neg (by decide), if_pos rfl]
    rfl

/-- A part of a frame is waited on. -/
theorem nextFrame_part {f : Bytes} (h : WellFormed f) {k : Nat} (hk : 0 < k)
    (hlt : k < f.length) : nextFrame (f.take k) = none := by
  have hhead : (f.take k).headD 0 = f.headD 0 :=
    headD_take hk (by omega)
  have hlen : (f.take k).length = k := List.length_take_of_le (by omega)
  rw [nextFrame]
  simp only [tryParseSolOpenReply, tryParseSolDisplayData, hhead, hlen]
  rcases h with ⟨htag, h⟩ | ⟨htag, h⟩ | ⟨htag, h⟩ | ⟨htag, h⟩
  · rw [htag, if_pos rfl, if_neg (by omega), if_neg (by simp),
      if_pos (by omega)]
    rfl
  · rw [htag, if_neg (by decide), if_neg (by decide), if_neg (by decide),
      if_pos rfl, if_pos (by omega)]
  · rw [htag, if_neg (by decide), if_neg (by decide), if_pos rfl,
      if_pos (by omega)]
  · rw [htag, if_neg (by decide), if_pos rfl, if_neg (by omega),
      if_neg (by simp)]
    by_cases hshort : k < 10
    · rw [if_pos hshort]
      rfl
    · -- the length is there already, and it is the frame's
      have hn : read16Le (f.take k) 8 = read16Le f 8 := by
        have := read16Le_append (show 8 + 2 ≤ (f.take k).length by omega)
          (f.drop k)
        rw [List.take_append_drop] at this
        exact this.symm
      rw [if_neg hshort, hn, if_pos (by omega)]
      rfl

/-- A frame shows its payload, and only one that refuses stops the loop. -/
theorem handleFrame_shows (env : Env) {f : Bytes} (h : WellFormed f)
    (s : Session) :
    (s.handleFrame env (inboundOf f)).1.inbox = s.inbox ∧
      (s.handleFrame env (inboundOf f)).2 = !refuses f ∧
      displayed (s.handleFrame env (inboundOf f)).1.out =
        displayed s.out ++ payload f := by
  have hnone : displayed s.out = displayed s.out ++ [] :=
    (List.append_nil _).symm
  rcases h with ⟨htag, -⟩ | ⟨htag, -⟩ | ⟨htag, -⟩ | ⟨htag, -⟩
  · rw [inboundOf, payload, refuses, htag, if_pos rfl, if_neg (by decide),
      handleFrame]
    split
    next hbad =>
      have hone : (f.getD 9 0 != 0) = true := by rw [bne_iff_ne]; exact hbad
      rw [hone]
      exact ⟨rfl, rfl, displayed_append _ _⟩
    next hok =>
      have hzero : (f.getD 9 0 != 0) = false := by
        rw [bne_eq_false_iff_eq]
        exact not_not.mp hok
      rw [hzero]
      split
      · refine ⟨rfl, rfl, ?_⟩
        simp [emit, writeNumbered, write, displayed]
      · exact ⟨rfl, rfl, hnone⟩
  · rw [inboundOf, payload, refuses, htag, if_neg (by decide),
      if_neg (by decide), if_neg (by decide), if_neg (by decide)]
    exact ⟨rfl, rfl, hnone⟩
  · rw [inboundOf, payload, refuses, htag, if_neg (by decide),
      if_neg (by decide), if_pos rfl, if_neg (by decide)]
    exact ⟨rfl, rfl, hnone⟩
  · rw [inboundOf, payload, refuses, htag, if_neg (by decide), if_pos rfl,
      if_pos rfl]
    refine ⟨?_, rfl, ?_⟩
    · rw [handleFrame]
      split <;> rfl
    · rw [handleFrame]
      split
      next hempty =>
        rw [List.isEmpty_iff.mp hempty]
        exact hnone
      · exact (displayed_append _ _).trans (by simp [displayed])

/-! ## However the stream is cut -/

/-- Where the loop stops: at a frame that is not whole, or behind one that
refuses. -/
def Stops (done left : List Bytes) (inbox : Bytes) : Prop :=
  (∀ f ∈ done, refuses f = false) ∧ (∀ f ∈ left.head?, inbox.length < f.length) ∨
    ∃ pre f, done = pre ++ [f] ∧ refuses f = true ∧
      ∀ g ∈ pre, refuses g = false

theorem Stops.cons {f : Bytes} {done left : List Bytes} {inbox : Bytes}
    (h : Stops done left inbox) (hf : refuses f = false) :
    Stops (f :: done) left inbox := by
  rcases h with ⟨hdone, hleft⟩ | ⟨pre, g, rfl, hg, hpre⟩
  · exact .inl ⟨List.forall_mem_cons.mpr ⟨hf, hdone⟩, hleft⟩
  · exact .inr ⟨f :: pre, g, rfl, hg, List.forall_mem_cons.mpr ⟨hf, hpre⟩⟩

/-- From `s` to `d` the frames `done` were taken, and of the stream `left` is
left. -/
structure Takes (done left : List Bytes) (rest : Bytes) (s d : Session) :
    Prop where
  inbox : d.inbox ++ rest = left.flatten
  shows : displayed d.out = displayed s.out ++ (done.map payload).flatten

theorem rounds_takes (env : Env) (fuel : Nat) {todo : List Bytes}
    (hwf : ∀ f ∈ todo, WellFormed f) {s : Session} {rest : Bytes}
    (hin : s.inbox ++ rest = todo.flatten) (hfuel : s.inbox.length ≤ fuel) :
    ∃ done left, todo = done ++ left ∧
      Takes done left rest s
        (rounds drained (drainStep env) fuel s) ∧
      Stops done left
        (rounds drained (drainStep env) fuel s).inbox := by
  have hwait {s : Session} {todo : List Bytes} (fuel : Nat)
      (hwf : ∀ f ∈ todo, WellFormed f) (hin : s.inbox ++ rest = todo.flatten)
      (hnil : s.inbox = []) :
      ∃ done left, todo = done ++ left ∧
        Takes done left rest s
          (rounds drained (drainStep env) fuel s) ∧
        Stops done left
          (rounds drained (drainStep env) fuel s).inbox := by
    have hidle : s.drained = true := List.isEmpty_iff.mpr hnil
    rw [rounds_idle hidle]
    refine ⟨[], todo, rfl, ⟨hin, (List.append_nil _).symm⟩,
      .inl ⟨nofun, fun f hf => ?_⟩⟩
    have := (hwf f (List.mem_of_mem_head? hf)).pos
    rw [hnil, List.length_nil]
    omega
  induction fuel generalizing s todo with
  | zero =>
      exact hwait 0 hwf hin (List.length_eq_zero_iff.mp (Nat.le_zero.mp hfuel))
  | succ fuel ih =>
      by_cases hnil : s.inbox = []
      · exact hwait (fuel + 1) hwf hin hnil
      have hbusy : s.drained = false :=
        eq_false_of_ne_true fun h => hnil (List.isEmpty_iff.mp h)
      have hpos : 0 < s.inbox.length := List.length_pos_iff.mpr hnil
      cases todo with
      | nil =>
          rw [List.flatten_nil, List.append_eq_nil_iff] at hin
          exact absurd hin.1 hnil
      | cons f todo =>
          have hf := hwf f List.mem_cons_self
          rw [List.flatten_cons] at hin
          by_cases hlt : s.inbox.length < f.length
          · -- the front of the frame, and it is waited on
            have hpart : s.inbox = f.take s.inbox.length := by
              have := congrArg (List.take s.inbox.length) hin
              rwa [List.take_left, List.take_append_of_le_length (by omega)]
                at this
            have hstep : s.drainStep env = (s, false) := by
              rw [drainStep, hpart, nextFrame_part hf hpos hlt]
            rw [rounds_stop hbusy hstep]
            refine ⟨[], f :: todo, rfl, ⟨?_, (List.append_nil _).symm⟩,
              .inl ⟨nofun, fun g hg => ?_⟩⟩
            · rw [List.flatten_cons]
              exact hin
            · cases hg
              exact hlt
          · -- the frame, and some of what is behind it
            obtain ⟨tail, htail, hrest⟩ : ∃ tail, s.inbox = f ++ tail ∧
                tail ++ rest = todo.flatten := by
              rcases List.append_eq_append_iff.mp hin with
                ⟨more, hf', -⟩ | ⟨tail, htail, hrest⟩
              · have hmore : more = [] := by
                  have := congrArg List.length hf'
                  rw [List.length_append] at this
                  exact List.length_eq_zero_iff.mp (by omega)
                rw [hmore, List.append_nil] at hf'
                rw [hf'] at hin
                exact ⟨[], by rw [hf', List.append_nil],
                  List.append_cancel_left hin⟩
              · exact ⟨tail, htail, hrest.symm⟩
            let t : Session := { s with inbox := tail }
            have hstep : s.drainStep env =
                t.handleFrame env (inboundOf f) := by
              rw [drainStep, htail, nextFrame_append hf]
              simp only []
              rw [List.drop_left]
            obtain ⟨hinbox, hgo, hshows⟩ := handleFrame_shows env hf t
            have hd : s.drainStep env =
                ((t.handleFrame env (inboundOf f)).1, !refuses f) := by
              rw [hstep, ← hgo]
            cases hrefuse : refuses f with
            | true =>
                rw [hrefuse] at hd
                rw [rounds_stop hbusy hd]
                refine ⟨[f], todo, rfl, ⟨?_, ?_⟩, .inr ⟨[], f, rfl, hrefuse, nofun⟩⟩
                · rw [hinbox]
                  exact hrest
                · rw [hshows]
                  simp [t]
            | false =>
                rw [hrefuse] at hd
                rw [rounds_go hbusy hd]
                have hless : (t.handleFrame env (inboundOf f)).1.inbox.length ≤
                    fuel := by
                  have hlen := congrArg List.length htail
                  rw [List.length_append] at hlen
                  have hpos := hf.pos
                  rw [hinbox]
                  change tail.length ≤ fuel
                  omega
                obtain ⟨done, left, rfl, htakes, hstops⟩ := ih
                  (fun g hg => hwf g (List.mem_cons_of_mem f hg))
                  (hinbox ▸ hrest) hless
                refine ⟨f :: done, left, rfl, ⟨htakes.inbox, ?_⟩,
                  hstops.cons hrefuse⟩
                rw [htakes.shows, hshows, List.map_cons, List.flatten_cons,
                  List.append_assoc]

/-- The whole stream, in whatever chunks: in the end there is nothing left, or
a frame that refuses was taken. -/
theorem run_takes (env : Env) {refused : Prop} (cuts : List Bytes)
    {todo : List Bytes} (hwf : ∀ f ∈ todo, WellFormed f) {s : Session}
    (hin : s.inbox ++ cuts.flatten = todo.flatten)
    (hwait : refused ∨ ∀ f ∈ todo.head?, s.inbox.length < f.length) :
    ∃ done left, todo = done ++ left ∧
      Takes done left [] s (run (handle env) s (cuts.map .rawBytes)) ∧
      (refused ∨ (∃ f ∈ done, refuses f = true) ∨ left = []) := by
  induction cuts generalizing refused s todo with
  | nil =>
      refine ⟨[], todo, rfl, ⟨hin, (List.append_nil _).symm⟩, ?_⟩
      rcases hwait with hr | hwait
      · exact .inl hr
      · cases todo with
        | nil => exact .inr (.inr rfl)
        | cons f todo =>
            have hlt := hwait f rfl
            have hlen := congrArg List.length hin
            rw [List.flatten_nil, List.append_nil, List.flatten_cons,
              List.length_append] at hlen
            omega
  | cons c cuts ih =>
      let t : Session := { s with inbox := s.inbox ++ c }
      have hin' : t.inbox ++ cuts.flatten = todo.flatten := by
        rw [← hin, List.flatten_cons, ← List.append_assoc]
      obtain ⟨done, left, rfl, htakes, hstops⟩ :=
        rounds_takes env t.inbox.length hwf hin' (Nat.le_refl _)
      have hwait' : (refused ∨ ∃ f ∈ done, refuses f = true) ∨
          ∀ f ∈ left.head?, (t.drainInbox env).inbox.length < f.length := by
        rcases hstops with ⟨-, hleft⟩ | ⟨pre, f, rfl, hf, -⟩
        · exact .inr hleft
        · exact .inl (.inr ⟨f, by simp, hf⟩)
      obtain ⟨done', left', rfl, htakes', hend⟩ := ih
        (fun f hf => hwf f (List.mem_append_right _ hf)) htakes.inbox hwait'
      refine ⟨done ++ done', left', (List.append_assoc _ _ _).symm,
        ⟨htakes'.inbox, ?_⟩, ?_⟩
      · refine htakes'.shows.trans ?_
        rw [htakes.shows, List.map_append, List.flatten_append]
        exact List.append_assoc _ _ _
      · rcases hend with (hr | ⟨f, hf, hrefuse⟩) | ⟨f, hf, hrefuse⟩ | hleft
        · exact .inl hr
        · exact .inr (.inl ⟨f, List.mem_append_left _ hf, hrefuse⟩)
        · exact .inr (.inl ⟨f, List.mem_append_right _ hf, hrefuse⟩)
        · exact .inr (.inr hleft)

/-- Nothing is shown behind a frame that refuses. -/
def ShowsBeforeRefusal (fs : List Bytes) : Prop :=
  ∀ pre f post, fs = pre ++ f :: post → refuses f = true →
    (post.map payload).flatten = []

/-- What is behind any frame that refuses is behind the first. -/
theorem payload_behind {pre pre' post left : List Bytes} {f g : Bytes}
    (hpre' : ∀ h ∈ pre', refuses h = false)
    (hleft : (left.map payload).flatten = []) (hf : refuses f = true)
    (hsplit : pre' ++ g :: left = pre ++ f :: post) :
    (post.map payload).flatten = [] := by
  rcases List.append_eq_append_iff.mp hsplit with
    ⟨mid, -, hmid⟩ | ⟨mid, hmid, hpost⟩
  · cases mid with
    | nil =>
        cases hmid
        exact hleft
    | cons _ mid =>
        rw [List.cons_append, List.cons.injEq] at hmid
        rw [hmid.2, List.map_append, List.flatten_append, List.append_eq_nil_iff,
          List.map_cons, List.flatten_cons, List.append_eq_nil_iff] at hleft
        exact hleft.2.2
  · cases mid with
    | nil =>
        cases hpost
        exact hleft
    | cons _ mid =>
        cases hpost
        have hmem : f ∈ pre' := by rw [hmid]; simp
        rw [hpre' f hmem] at hf
        cases hf

/-- However the stream is cut, what is shown is what its frames have to show. -/
def ShowsAll (env : Env) (s : Session) (fs : List Bytes) : Prop :=
  ∀ cuts : List Bytes, cuts.flatten = fs.flatten →
    displayed (run (handle env) s (cuts.map .rawBytes)).out =
      displayed s.out ++ (fs.map payload).flatten

theorem showsAll_iff (env : Env) {s : Session} (hs : s.inbox = [])
    {fs : List Bytes} (hwf : ∀ f ∈ fs, WellFormed f) :
    ShowsAll env s fs ↔ ShowsBeforeRefusal fs := by
  constructor
  · -- in one chunk, the first frame that refuses is the last that is taken
    intro hall pre f post hfs hf
    have hone := hall [fs.flatten] (by simp)
    let t : Session := { s with inbox := s.inbox ++ fs.flatten }
    have hin : t.inbox ++ [] = fs.flatten := by
      change s.inbox ++ fs.flatten ++ [] = fs.flatten
      rw [hs, List.nil_append, List.append_nil]
    obtain ⟨done, left, hsplit, htakes, hstops⟩ :=
      rounds_takes env t.inbox.length hwf hin (Nat.le_refl _)
    have hshown : displayed (t.drainInbox env).out =
        displayed s.out ++ (done.map payload).flatten := htakes.shows
    have hleft : (left.map payload).flatten = [] := by
      have hall := hshown.symm.trans hone
      rw [hsplit, List.map_append, List.flatten_append] at hall
      exact List.self_eq_append_right.mp (List.append_cancel_left hall)
    generalize rounds drained (drainStep env) t.inbox.length t = d
      at htakes hstops
    rcases hstops with ⟨hdone, hwait⟩ | ⟨pre', g, rfl, hg, hpre'⟩
    · have hnone : left = [] := by
        cases left with
        | nil => rfl
        | cons g left =>
            have hlt := hwait g rfl
            have hlen := congrArg List.length htakes.inbox
            rw [List.append_nil, List.flatten_cons, List.length_append] at hlen
            omega
      have hmem : f ∈ done := by
        rw [hnone, List.append_nil] at hsplit
        rw [← hsplit, hfs]
        simp
      rw [hdone f hmem] at hf
      cases hf
    · exact payload_behind hpre' hleft hf
        (by rw [← hfs, hsplit, List.append_assoc]; rfl)
  · intro hquiet cuts hcuts
    have hin : s.inbox ++ cuts.flatten = fs.flatten := by
      rw [hs, List.nil_append, hcuts]
    have hwait : False ∨ ∀ f ∈ fs.head?, s.inbox.length < f.length := by
      refine .inr fun f hf => ?_
      have := (hwf f (List.mem_of_mem_head? hf)).pos
      rw [hs, List.length_nil]
      omega
    obtain ⟨done, left, rfl, htakes, hend⟩ := run_takes env cuts hwf hin hwait
    rw [htakes.shows, List.map_append, List.flatten_append]
    rcases hend with h | ⟨f, hf, hrefuse⟩ | rfl
    · exact h.elim
    · obtain ⟨pre, post, rfl⟩ := List.append_of_mem hf
      have hnone := hquiet pre f (post ++ left) (by simp) hrefuse
      rw [List.map_append, List.flatten_append, List.append_eq_nil_iff] at hnone
      rw [hnone.2, List.append_nil]
    · rw [List.map_nil, List.flatten_nil, List.append_nil]

/-! ## What is typed -/

/-- The data of a `0x28`, if it is as long as it says. -/
def hostData (frame : Bytes) : Option Bytes :=
  if frame.headD 0 = 0x28 ∧ frame.length = 10 + read16Le frame 8 then
    some (frame.drop 10)
  else none

/-- The frames that were written. -/
def sentFrames (es : List Effect) : List Bytes :=
  es.filterMap fun
    | .wrote frame _ => some frame.bytes
    | _ => none

theorem hostData_build {data : Bytes} (h : data.length < 2 ^ 16) :
    hostData (buildSolDataToHost data) = some data := by
  have hlen : read16Le (buildSolDataToHost data) 8 = data.length := by
    have hpack := read16Le_pack data.length data
    rw [Nat.mod_eq_of_lt h] at hpack
    exact hpack
  rw [hostData, if_pos ⟨rfl, by rw [hlen]; simp [buildSolDataToHost, pack16Le]; omega⟩]
  rfl

theorem mapM_hostData {chunks : List Bytes}
    (h : ∀ c ∈ chunks, c.length < 2 ^ 16) :
    (chunks.map buildSolDataToHost).mapM hostData = some chunks := by
  induction chunks with
  | nil => rfl
  | cons c chunks ih =>
      rw [List.map_cons, List.mapM_cons, hostData_build (h c List.mem_cons_self),
        ih fun c' hc' => h c' (List.mem_cons_of_mem c hc')]
      rfl

/-- Sending chunks writes one frame for each and overflows nothing. -/
theorem foldl_send (env : Env) (chunks : List Bytes) (s : Session) :
    ∃ new, (chunks.foldl (fun s data => s.write env (.dataToHost data)) s).out =
        s.out ++ new ∧
      sentFrames new = chunks.map buildSolDataToHost ∧ .overflow ∉ new := by
  induction chunks generalizing s with
  | nil => exact ⟨[], (List.append_nil _).symm, rfl, nofun⟩
  | cons c chunks ih =>
      obtain ⟨new, hout, hsent, hno⟩ := ih (s.write env (.dataToHost c))
      refine ⟨.wrote (.dataToHost c)
        (env.writeRaw s.writes (buildSolDataToHost c)) :: new, ?_, ?_, ?_⟩
      · rw [List.foldl_cons, hout]
        exact List.append_assoc _ _ _
      · rw [List.map_cons, ← hsent]
        rfl
      · simp [hno]

/-- The frames that go out decode to the input. -/
def Sends (env : Env) (s : Session) (input : Bytes) : Prop :=
  ∃ new, (s.sendInput env input).out = s.out ++ new ∧ .overflow ∉ new ∧
    ∃ payloads, (sentFrames new).mapM hostData = some payloads ∧
      payloads.flatten = input

theorem sends_iff (env : Env) {s : Session} (hopen : s.isOpen = true)
    (input : Bytes) : Sends env s input ↔ input.length ≤ kRaises * kChunk := by
  have hk : 0 < kChunk := by decide
  rw [Sends, sendInput, hopen]
  simp only [Bool.not_true, Bool.false_eq_true, if_false]
  rw [← pieces_count hk]
  by_cases hfits : (pieces kChunk input).length ≤ kRaises
  · rw [if_pos hfits]
    obtain ⟨new, hout, hsent, hno⟩ := foldl_send env (pieces kChunk input) s
    refine iff_of_true ⟨new, hout, hno, pieces kChunk input, ?_,
      pieces_flatten hk input⟩ hfits
    rw [hsent]
    refine mapM_hostData fun c hc => ?_
    have hle := (pieces_length hk input c hc).2
    rw [kChunk] at hle
    omega
  · rw [if_neg hfits]
    refine iff_of_false ?_ hfits
    rintro ⟨new, hout, hno, -⟩
    obtain ⟨sent, hsent, -⟩ := foldl_send env
      ((pieces kChunk input).take (kRaises + 1)) s
    rw [emit, hsent, List.append_assoc] at hout
    rw [← List.append_cancel_left hout] at hno
    simp at hno

/-! ## What stays closed -/

/-- A closed session is one that is not open and has no keepalive. -/
def Closed (s : Session) : Prop := s.isOpen = false ∧ s.keepalive = false

end Session

def Effect.marks (closed : Bool) : Effect → Bool
  | .closed _ => true
  | _ => closed

def Effect.opens : Effect → Bool
  | .sessionOpened | .keepaliveStarted => true
  | _ => false

/-- A `closed` and what it rules out. -/
def closing : Watch Session Effect where
  out := Session.out
  marks := Effect.marks
  breach := Effect.opens
  rest := Session.Closed

namespace Session

/-- No open is accepted for the first time after a `closed`. -/
def heeds (s : Session) : Bool :=
  !closing.alarm s || s.settingsSent ||
    match nextFrame s.inbox with
    | some (.openReply status, _) => status != 0
    | _ => true

def heedsAt (env : Env) (s : Session) : Event → Bool
  | .rawBytes chunk =>
      everyRound drained (drainStep env) heeds (s.inbox ++ chunk).length
        { s with inbox := s.inbox ++ chunk }
  | _ => true

theorem quiet {s d : Session} (hs : closing.Calm s) (hout : d.out = s.out)
    (hrest : s.Closed → d.Closed) : closing.Rests True s d :=
  Watch.Rests.quiet hs hout hrest

theorem fail_rests (reason : String) (s : Session) :
    closing.Rests True s (s.fail reason) := by
  refine ⟨[.closed reason], rfl, iff_of_true ?_ trivial, fun _ _ => ⟨rfl, rfl⟩⟩
  cases closing.alarm s <;> rfl

theorem write_rests (env : Env) (frame : Frame) {s : Session}
    (hs : closing.Calm s) : closing.Rests True s (s.write env frame) :=
  Watch.Rests.entry hs rfl (fun _ => rfl) rfl id

theorem start_rests (env : Env) (authenticated : Bool) {s : Session}
    (hs : closing.Calm s) : closing.Rests True s (s.start env authenticated) := by
  have hwrite : closing.Rests True s (s.writeNumbered env .solOpen) :=
    (write_rests env _ hs).around rfl rfl id
  rw [start]
  split
  · exact fail_rests _ s
  · simp only []
    split
    · have hfail := fail_rests
        s!"could not write SOL Open: {env.lastError (s.writeNumbered env .solOpen).writes}"
        (s.writeNumbered env .solOpen)
      exact (hwrite.trans hfail.grows fun _ => hfail).congr and_self_iff
    · exact hwrite

theorem foldl_send_rests (env : Env) (chunks : List Bytes) {s : Session}
    (hs : closing.Calm s) : closing.Rests True s
      (chunks.foldl (fun s data => s.write env (.dataToHost data)) s) := by
  induction chunks generalizing s with
  | nil => exact quiet hs rfl id
  | cons c chunks ih =>
      have hwrite := write_rests env (.dataToHost c) hs
      have hrest := ih (hwrite.calm trivial)
      exact (hwrite.trans hrest.grows fun _ => hrest).congr and_self_iff

theorem sendInput_rests (env : Env) (input : Bytes) {s : Session}
    (hs : closing.Calm s) : closing.Rests True s (s.sendInput env input) := by
  rw [sendInput]
  split
  · exact quiet hs rfl id
  · simp only []
    split
    · exact foldl_send_rests env _ hs
    · have hsent := foldl_send_rests env
        ((pieces kChunk input).take (kRaises + 1)) hs
      generalize ((pieces kChunk input).take (kRaises + 1)).foldl
        (fun s data => s.write env (.dataToHost data)) s = t at hsent
      have hmark : closing.Rests True t (t.emit .overflow) :=
        Watch.Rests.entry (hsent.calm trivial) rfl (fun _ => rfl) rfl id
      exact (hsent.trans hmark.grows fun _ => hmark).congr and_self_iff

/-- What an open that is accepted for the first time leaves behind. -/
theorem accept_out (env : Env) {s : Session} (hsent : s.settingsSent = false) :
    (s.handleFrame env (.openReply 0)).1.out = s.out ++
      [.wrote (.settings s.sequence)
        (env.writeRaw s.writes (buildSolSettings s.sequence)),
        .keepaliveStarted, .sessionOpened] := by
  rw [handleFrame, if_neg (not_not_intro rfl), hsent]
  simp [emit, writeNumbered, write, Frame.bytes]

/-- A frame leaves a closed session alone unless it is an open accepted for
the first time. -/
theorem handleFrame_rests (env : Env) (frame : Inbound) {s : Session}
    (hs : closing.Calm s) :
    closing.Rests ((!closing.alarm s || s.settingsSent ||
      match frame with
      | .openReply status => status != 0
      | _ => true) = true) s (s.handleFrame env frame).1 := by
  cases frame with
  | openReply status =>
      by_cases hstatus : status = 0
      · subst hstatus
        cases hsent : s.settingsSent with
        | true =>
            rw [handleFrame, if_neg (not_not_intro rfl), hsent]
            refine (quiet hs rfl id).congr (iff_of_true trivial ?_)
            cases closing.alarm s <;> rfl
        | false =>
            -- the one case that opens
            have hout := accept_out env (s := s) hsent
            refine ⟨_, hout, ?_, fun hg ha => ?_⟩
            · cases closing.alarm s with
              | false => exact iff_of_true rfl rfl
              | true => exact iff_of_false Bool.noConfusion Bool.noConfusion
            · have hquiet : closing.alarm s = false := by simpa using hg
              rw [Watch.alarm_append (w := closing) hout, hquiet] at ha
              cases ha
      · rw [handleFrame, if_pos hstatus]
        refine (fail_rests _ s).congr (iff_of_true trivial ?_)
        change (_ || status != 0) = true
        rw [bne_iff_ne.mpr hstatus, Bool.or_true]
  | displayData payload =>
      suffices hrests : closing.Rests True s (handleFrame env
        (.displayData payload) s).1 from
        hrests.congr (iff_of_true trivial (Bool.or_true _))
      rw [handleFrame]
      split
      · exact quiet hs rfl id
      · exact Watch.Rests.entry hs rfl (fun _ => rfl) rfl id
  | keepalive =>
      exact (quiet hs rfl id).congr (iff_of_true trivial (Bool.or_true _))
  | settingsEcho =>
      exact (quiet hs rfl id).congr (iff_of_true trivial (Bool.or_true _))
  | unexpected tag =>
      exact (fail_rests _ s).congr (iff_of_true trivial (Bool.or_true _))

theorem drainStep_grows (env : Env) (s : Session) :
    Grows Session.out s (s.drainStep env).1 := by
  rw [drainStep]
  split
  · exact Grows.refl s
  next frame n hnext =>
    cases frame with
    | openReply status =>
        by_cases hstatus : status = 0
        · subst hstatus
          let t : Session := { s with inbox := s.inbox.drop n }
          by_cases hsent : t.settingsSent = true
          · have hsame : t.handleFrame env (.openReply 0) = (t, true) := by
              rw [handleFrame, if_neg (not_not_intro rfl), hsent]
              rfl
            exact Grows.of_eq (congrArg (fun p => p.1.out) hsame)
          · exact ⟨_, accept_out env (s := t) (eq_false_of_ne_true hsent)⟩
        · rw [handleFrame, if_pos hstatus]
          exact ⟨[.closed _], rfl⟩
    | displayData payload =>
        rw [handleFrame]
        split
        · exact Grows.of_eq rfl
        · exact ⟨[.data payload], rfl⟩
    | keepalive => exact Grows.of_eq rfl
    | settingsEcho => exact Grows.of_eq rfl
    | unexpected tag => exact ⟨[.closed _], rfl⟩

theorem drainStep_rests (env : Env) {s : Session} (hs : closing.Calm s) :
    closing.Rests (s.heeds = true) s (s.drainStep env).1 := by
  rw [drainStep, heeds]
  cases hnext : nextFrame s.inbox with
  | none => exact (quiet hs rfl id).congr (iff_of_true trivial (Bool.or_true _))
  | some taken =>
      obtain ⟨frame, n⟩ := taken
      let t : Session := { s with inbox := s.inbox.drop n }
      have hframe := (handleFrame_rests env frame (s := t) hs).around
        (s := s) rfl rfl id
      cases frame <;> exact hframe

theorem handle_rests (env : Env) {s : Session} (hs : closing.Calm s)
    (e : Event) : closing.Rests (s.heedsAt env e = true) s (s.handle env e) := by
  cases e with
  | start authenticated =>
      exact (start_rests env authenticated hs).congr (iff_of_true trivial rfl)
  | sendInput input =>
      exact (sendInput_rests env input hs).congr (iff_of_true trivial rfl)
  | rawBytes chunk =>
      let t : Session := { s with inbox := s.inbox ++ chunk }
      have hloop := Watch.Rests.rounds (w := closing) drained
        (drainStep_grows env) (fun _ h => drainStep_rests env h) t.inbox.length
        (s := t) hs
      exact hloop.around rfl rfl id
  | clientFailed reason =>
      exact (fail_rests reason s).congr (iff_of_true trivial rfl)
  | keepaliveTimer =>
      have hwrite : closing.Rests True s (s.handle env .keepaliveTimer) := by
        rw [handle]
        split
        · exact write_rests env _ hs
        · exact quiet hs rfl id
      exact hwrite.congr (iff_of_true trivial rfl)

theorem handle_grows (env : Env) (s : Session) (e : Event) :
    Grows Session.out s (s.handle env e) := by
  have hwrite (frame : Frame) (t : Session) :
      Grows Session.out t (t.write env frame) := ⟨[.wrote frame _], rfl⟩
  have hfail (reason : String) (t : Session) :
      Grows Session.out t (t.fail reason) := ⟨[.closed reason], rfl⟩
  cases e with
  | start authenticated =>
      have hopen : Grows Session.out s (s.writeNumbered env .solOpen) :=
        (hwrite (.solOpen s.sequence)
          { s with sequence := (s.sequence + 1) % 2 ^ 32 }).around rfl rfl
      rw [handle, start]
      split
      · exact hfail _ s
      · simp only []
        split
        · exact hopen.trans (hfail _ _)
        · exact hopen
  | sendInput input =>
      rw [handle, sendInput]
      split
      · exact Grows.refl s
      · simp only []
        split
        · obtain ⟨new, hout, -⟩ := foldl_send env (pieces kChunk input) s
          exact ⟨new, hout⟩
        · obtain ⟨new, hout, -⟩ := foldl_send env
            ((pieces kChunk input).take (kRaises + 1)) s
          exact Grows.trans ⟨new, hout⟩ ⟨[.overflow], rfl⟩
  | rawBytes chunk =>
      exact (rounds_relation Grows.refl Grows.trans (drainStep_grows env) _
        { s with inbox := s.inbox ++ chunk }).around rfl rfl
  | clientFailed reason => exact hfail reason s
  | keepaliveTimer =>
      rw [handle]
      split
      · exact hwrite .keepalive s
      · exact Grows.refl s

end Session

open Session

/-- A stream shows all it has to show, however it is cut, exactly if nothing
to show is behind an open that refuses; what is typed goes out whole as long
as `off` can count it; and a run leaves a closed session closed exactly if no
open is accepted for the first time under it. -/
theorem sol_framing (env : Env) :
    (∀ s : Session, s.inbox = [] → ∀ fs, (∀ f ∈ fs, WellFormed f) →
      (ShowsAll env s fs ↔ ShowsBeforeRefusal fs)) ∧
    (∀ s : Session, s.isOpen = true → ∀ input,
      (Sends env s input ↔ input.length ≤ kRaises * kChunk)) ∧
    ∀ es : List Event,
      (closing.inOrder false (run (handle env) {} es).out = true ∧
        closing.Calm (run (handle env) {} es)) ↔
      Guarded (handle env) (fun _ s e => s.heedsAt env e = true) {} es :=
  ⟨fun _ hs _ hwf => showsAll_iff env hs hwf,
    fun _ hopen input => sends_iff env hopen input,
    fun es => Watch.inOrder_run (w := closing) (handle_grows env)
      (fun _ e hs => handle_rests env hs e) rfl es⟩

/-- A client whose writes all succeed. -/
def Env.plain : Env := ⟨fun _ bytes => bytes.length, fun _ => ""⟩

/-- A refused open, an accepted one, and a frame that shows one byte. -/
def refused : Bytes := [0x21, 0, 0, 0, 0, 0, 0, 0, 0, 1] ++ List.replicate 13 0

def accepted : Bytes := 0x21 :: List.replicate 22 0

def shown : Bytes := [0x2A, 0, 0, 0, 0, 0, 0, 0, 1, 0, 0x41]

/-- With nothing refused, everything is shown. -/
theorem sol_framing_accepted : ShowsAll .plain {} [accepted, shown] := by
  have hwf : ∀ f ∈ [accepted, shown], WellFormed f := by
    unfold WellFormed
    decide
  have hnone : ∀ f ∈ [accepted, shown], refuses f = false := by decide
  refine ((sol_framing .plain).1 {} rfl [accepted, shown] hwf).mpr ?_
  intro pre f post hfs hf
  have hmem : f ∈ [accepted, shown] := by rw [hfs]; simp
  rw [hnone f hmem] at hf
  cases hf

/-- One byte is shown or not as the stream is cut, and a refused session opens
and starts its keepalive. -/
theorem sol_framing_refused :
    displayed (run (handle .plain) {} [.rawBytes (refused ++ shown)]).out = [] ∧
    displayed (run (handle .plain) {}
      [.rawBytes refused, .rawBytes shown]).out = [0x41] ∧
    (run (handle .plain) {} [.start true, .rawBytes refused]).out.getLast? =
      some (.closed "SOL OpenReply status 1") ∧
    (run (handle .plain) {}
      [.start true, .rawBytes refused, .rawBytes accepted]).isOpen = true ∧
    (run (handle .plain) {}
      [.start true, .rawBytes refused, .rawBytes accepted]).keepalive = true := by
  decide

end QuMesh.Redir.Sol
