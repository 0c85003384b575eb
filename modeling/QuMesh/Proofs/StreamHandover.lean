import QuMesh.Proofs.HandshakeOrder

/-!
# The stream behind the handshake

A peer's stream is a handshake and then the application's bytes, and the cut
into chunks has nothing to do with either: a chunk may end inside a frame, or
hold the last frame and the first of the payload. The handshake's half of it
is kept in the inbox until a frame is whole, and there are two ways out of the
inbox, the `0x14` that accepts and for KVM the `0x41`.

`Script` is the part of this that does not depend on the frames: a client that
takes a list of frames one by one, waits on any proper piece of the next, and
hands over what stands behind the last. Whatever the cut, it ends in the same
place, and what it hands over adds up to the payload.
-/

namespace QuMesh.Redir

open QuMesh.Lib

/-! ## A parsed frame stays parsed -/

theorem getD_append_left {b : Bytes} {i : Nat} (h : i < b.length) (t : Bytes) :
    (b ++ t).getD i 0 = b.getD i 0 :=
  List.getD_append _ _ _ _ h

/-- A slice inside a string does not see what is behind it. -/
theorem slice_append {b : Bytes} {off n : Nat} (h : off + n ≤ b.length)
    (t : Bytes) : ((b ++ t).drop off).take n = (b.drop off).take n := by
  have hlen : n ≤ (b.drop off).length := by
    rw [List.length_drop]
    omega
  rw [List.drop_append_of_le_length (by omega), List.take_append_of_le_length hlen]

theorem tryParseStartSessionReply_append {b : Bytes}
    {x : StartSessionReply × Nat} (h : tryParseStartSessionReply b = some x)
    (t : Bytes) : tryParseStartSessionReply (b ++ t) = some x := by
  unfold tryParseStartSessionReply at h ⊢
  simp only [] at h ⊢
  split at h
  · cases h
  next h1 =>
    split at h
    · cases h
    next h2 =>
      split at h
      · cases h
      next h3 =>
        split at h
        · cases h
        next h4 =>
          have hfix : kStartReplyFixedSize = 13 := rfl
          rw [hfix] at h3 h4
          have hlen : (b ++ t).length = b.length + t.length :=
            List.length_append
          rw [if_neg (by omega), byteAt_append (by omega), if_neg h2,
            if_neg (by omega), byteAt_append (by omega), if_neg (by omega),
            getD_append_left (by omega), slice_append (by omega)]
          exact h

theorem tryParseAuthReply_append {b : Bytes} {x : AuthReply × Nat}
    (h : tryParseAuthReply b = some x) (t : Bytes) :
    tryParseAuthReply (b ++ t) = some x := by
  unfold tryParseAuthReply at h ⊢
  simp only [] at h ⊢
  split at h
  · cases h
  next h1 =>
    split at h
    · cases h
    next h2 =>
      split at h
      · cases h
      next h3 =>
        split at h
        · cases h
        next h4 =>
          split at h
          · cases h
          next h5 =>
            have hfix : kAuthReplyFixedSize = 9 := rfl
            rw [hfix] at h3 h5
            have hlen : (b ++ t).length = b.length + t.length :=
              List.length_append
            rw [if_neg (by omega), byteAt_append (by omega), if_neg h2,
              if_neg (by omega), read32Le_append (by omega), if_neg h4,
              if_neg (by omega), getD_append_left (by omega),
              getD_append_left (by omega), slice_append (by omega)]
            exact h

theorem tryParseStartSessionReply_tag {b : Bytes}
    {x : StartSessionReply × Nat} (h : tryParseStartSessionReply b = some x) :
    byteAt b 0 = 0x11 := by
  by_contra htag
  rw [tryParseStartSessionReply] at h
  simp only [htag, ne_eq, not_false_eq_true, if_true, ite_self] at h
  cases h

theorem tryParseAuthReply_tag {b : Bytes} {x : AuthReply × Nat}
    (h : tryParseAuthReply b = some x) : byteAt b 0 = 0x14 := by
  by_contra htag
  rw [tryParseAuthReply] at h
  simp only [htag, ne_eq, not_false_eq_true, if_true, ite_self] at h
  cases h

/-- A frame that is whole is not whole in any shorter piece. -/
theorem parse_piece {ρ : Type} {parse : Bytes → Option (ρ × Nat)}
    (happend : ∀ {b x}, parse b = some x → ∀ t, parse (b ++ t) = some x)
    (hconsumed : ∀ {b r n}, parse b = some (r, n) → 0 < n ∧ n ≤ b.length)
    {f p : Bytes} {r : ρ} (hf : parse f = some (r, f.length)) (hp : p <+: f)
    (hne : p ≠ f) : parse p = none := by
  cases hparse : parse p with
  | none => rfl
  | some x =>
      obtain ⟨r', n⟩ := x
      obtain ⟨t, rfl⟩ := hp
      have hsame := happend hparse t
      rw [hf, Option.some.injEq, Prod.mk.injEq] at hsame
      have hn := (hconsumed hparse).2
      rw [← hsame.2, List.length_append] at hn
      have : t = [] := List.length_eq_zero_iff.mp (by omega)
      rw [this, List.append_nil] at hne
      exact absurd rfl hne

/-! ## Frames taken one by one -/

namespace Client

/-- The client with these bytes in its inbox. -/
def holding (i : Bytes) (c : Client) : Client := { c with inbox := i }

@[simp] theorem holding_inbox (i : Bytes) (c : Client) :
    (c.holding i).inbox = i := rfl

@[simp] theorem holding_holding (i j : Bytes) (c : Client) :
    (c.holding i).holding j = c.holding j := rfl

/-- The client with these bytes announced, one signal each. -/
def given (raws : List Bytes) (c : Client) : Client :=
  { c with out := c.out ++ raws.map .rawBytes }

/-- A client at work on a handshake: bytes that come in are parsed. -/
structure Reading (c : Client) : Prop where
  listening : c.listening = true
  state : c.state ≠ .authenticated

/-- The client waits on a proper piece of the frame `f`. -/
def Waits (env : Env) (c : Client) (f : Bytes) : Prop :=
  ∀ p, p <+: f → p ≠ f → p ≠ [] →
    (c.holding p).drainStep env = (c.holding p, false)

/-- The client takes the frame `f` and goes on as `d`, whatever comes after
it, and waits on less. -/
structure Takes (env : Env) (c : Client) (f : Bytes) (d : Client) : Prop where
  reading : c.Reading
  nonempty : f ≠ []
  takes : ∀ rest, (c.holding (f ++ rest)).drainStep env = (d.holding rest, true)
  waits : c.Waits env f

/-- The same for the frame that ends the handshake: what stands behind it is
announced. -/
structure Ends (env : Env) (c : Client) (f : Bytes) (d : Client) : Prop where
  reading : c.Reading
  nonempty : f ≠ []
  takes : ∀ rest, ∃ raws : List Bytes, raws.flatten = rest ∧
    (c.holding (f ++ rest)).drainStep env = (d.given raws, false)
  waits : c.Waits env f

inductive Script (env : Env) : Client → List Bytes → Client → Prop
  | last {c d : Client} {f : Bytes} (h : Ends env c f d) : Script env c [f] d
  | next {c c' d : Client} {f : Bytes} {fs : List Bytes} (h : Takes env c f c')
      (hs : Script env c' fs d) : Script env c (f :: fs) d

theorem Script.reading {env : Env} {c d : Client} {fs : List Bytes}
    (h : Script env c fs d) : c.Reading := by
  cases h with
  | last h => exact h.reading
  | next h => exact h.reading

theorem Script.nonempty {env : Env} {c d : Client} {fs : List Bytes}
    (h : Script env c fs d) : fs.flatten ≠ [] := by
  cases h with
  | last h => simpa using h.nonempty
  | next h => simp [h.nonempty]

/-- Where a client stands after some of the stream: it holds a piece of the
frames to come, or the handshake is over and this much was handed over.
`rest` is what is still to come. -/
def Stands (env : Env) (app : Bytes) (d : Client) (rest : Bytes)
    (c : Client) : Prop :=
  (∃ c₀ fs p, c = c₀.holding p ∧ Script env c₀ fs d ∧
    p.length < fs.flatten.length ∧ p ++ rest = fs.flatten ++ app) ∨
  (∃ raws : List Bytes, c = d.given raws ∧ raws.flatten ++ rest = app)

/-- What is in the inbox is either a piece of the frame or has it in front. -/
theorem piece_or_whole {i rest f tail : Bytes} (h : i ++ rest = f ++ tail) :
    (i <+: f ∧ i ≠ f) ∨ ∃ j, i = f ++ j ∧ j ++ rest = tail := by
  rcases List.append_eq_append_iff.mp h with ⟨t, hf, hrest⟩ | ⟨j, hi, htail⟩
  · by_cases ht : t = []
    · refine .inr ⟨[], ?_, ?_⟩
      · rw [hf, ht, List.append_nil, List.append_nil]
      · rw [hrest, ht, List.nil_append, List.nil_append]
    · refine .inl ⟨⟨t, hf.symm⟩, fun he => ht ?_⟩
      rw [he] at hf
      exact List.self_eq_append_right.mp hf
  · exact .inr ⟨j, hi, htail.symm⟩

theorem Waits.drainLoop {env : Env} {c : Client} {f p : Bytes}
    (h : c.Waits env f) (hp : p <+: f) (hne : p ≠ f) (fuel : Nat) :
    (c.holding p).drainLoop env fuel = c.holding p := by
  cases fuel with
  | zero => rfl
  | succ fuel =>
      rw [Client.drainLoop]
      split
      · rfl
      next hempty =>
        rw [h p hp hne (by simpa using hempty)]

theorem length_piece {p f : Bytes} (hp : p <+: f) (hne : p ≠ f) :
    p.length < f.length := by
  have hle := hp.length_le
  have hlen : p.length ≠ f.length := fun he => hne (hp.eq_of_length he)
  omega

/-- The loop takes every whole frame the inbox has. -/
theorem Script.drainLoop {env : Env} {c d : Client} {fs : List Bytes}
    (h : Script env c fs d) {app rest : Bytes} {i : Bytes} {fuel : Nat}
    (hfuel : i.length ≤ fuel) (hi : i ++ rest = fs.flatten ++ app) :
    Stands env app d rest ((c.holding i).drainLoop env fuel) := by
  induction h generalizing i fuel with
  | @last c d f h =>
      have hflat : [f].flatten = f := by simp
      rw [hflat] at hi
      rcases piece_or_whole hi with ⟨hp, hne⟩ | ⟨j, rfl, hj⟩
      · rw [h.waits.drainLoop hp hne]
        refine .inl ⟨c, [f], i, rfl, .last h, ?_, ?_⟩
        · rw [hflat]
          exact length_piece hp hne
        · rw [hflat]
          exact hi
      · obtain ⟨raws, hraws, hstep⟩ := h.takes j
        refine .inr ⟨raws, ?_, by rw [hraws]; exact hj⟩
        have hpos : 0 < f.length := List.length_pos_iff.mpr h.nonempty
        rw [List.length_append] at hfuel
        cases fuel with
        | zero => omega
        | succ fuel =>
            rw [Client.drainLoop, if_neg (by simp [h.nonempty]), hstep]
  | @next c c' d f fs h hs ih =>
      rw [List.flatten_cons, List.append_assoc] at hi
      rcases piece_or_whole hi with ⟨hp, hne⟩ | ⟨j, rfl, hj⟩
      · rw [h.waits.drainLoop hp hne]
        refine .inl ⟨c, f :: fs, i, rfl, .next h hs, ?_, ?_⟩
        · have := length_piece hp hne
          rw [List.flatten_cons, List.length_append]
          omega
        · rw [List.flatten_cons, List.append_assoc]
          exact hi
      · have hpos : 0 < f.length := List.length_pos_iff.mpr h.nonempty
        rw [List.length_append] at hfuel
        cases fuel with
        | zero => omega
        | succ fuel =>
            rw [Client.drainLoop, if_neg (by simp [h.nonempty]), h.takes j]
            exact ih (by omega) hj

/-- One chunk of the stream. -/
theorem Stands.readyRead {env : Env} {app : Bytes} {c d : Client}
    {chunk rest : Bytes} (hd : d.state = .authenticated)
    (hlisten : d.listening = true)
    (h : Stands env app d (chunk ++ rest) c) :
    Stands env app d rest (c.handle env (.readyRead chunk)) := by
  rcases h with ⟨c₀, fs, p, rfl, hs, -, hp⟩ | ⟨raws, rfl, happ⟩
  · have hl : (c₀.holding p).listening = true := hs.reading.listening
    have hst : (c₀.holding p).state ≠ .authenticated := hs.reading.state
    rw [handle, if_pos hl, handleReadyRead, if_neg hst]
    refine hs.drainLoop (i := p ++ chunk) (Nat.le_refl _) ?_
    rw [List.append_assoc]
    exact hp
  · have hl : (d.given raws).listening = true := hlisten
    have hst : (d.given raws).state = .authenticated := hd
    rw [handle, if_pos hl, handleReadyRead, if_pos hst]
    refine .inr ⟨raws ++ [chunk], ?_, ?_⟩
    · simp only [emit, given, List.map_append, List.map_cons, List.map_nil,
        List.append_assoc]
    · rw [List.flatten_append, List.append_assoc]
      simpa using happ

/-- All of it, however it is cut. -/
theorem Script.handsOver {env : Env} {c d : Client} {fs chunks : List Bytes}
    {app : Bytes} (hs : Script env c fs d) (hd : d.state = .authenticated)
    (hlisten : d.listening = true)
    (hchunks : chunks.flatten = fs.flatten ++ app) :
    ∃ raws : List Bytes, raws.flatten = app ∧
      run (handle env) (c.holding []) (chunks.map .readyRead) =
        d.given raws := by
  have hrun : ∀ (chunks : List Bytes) (c' : Client),
      Stands env app d chunks.flatten c' →
      Stands env app d [] (run (handle env) c' (chunks.map .readyRead)) := by
    intro chunks
    induction chunks with
    | nil => exact fun c' h => h
    | cons chunk chunks ih =>
        intro c' h
        rw [List.flatten_cons] at h
        exact ih _ (h.readyRead hd hlisten)
  have hstart : Stands env app d chunks.flatten (c.holding []) :=
    .inl ⟨c, fs, [], rfl, hs, List.length_pos_iff.mpr hs.nonempty, hchunks⟩
  rcases hrun chunks _ hstart with ⟨c₀, fs', p, -, -, hlt, hp⟩ | ⟨raws, hc, happ⟩
  · rw [List.append_nil] at hp
    rw [hp, List.length_append] at hlt
    omega
  · exact ⟨raws, by simpa using happ, hc⟩

/-! ## A handshake as a script -/

/-- The frame was parsed off the inbox. -/
def took (frame : Received) (c : Client) : Client :=
  c.emit (.consumed c.socketId c.state frame)

theorem consume_holding (f rest : Bytes) (frame : Received) (c : Client) :
    (c.holding (f ++ rest)).consume f.length frame =
      (c.took frame).holding rest := by
  simp [consume, took, holding, emit, socketId]

theorem byteAt_piece {p f : Bytes} (hp : p <+: f) (hne : p ≠ []) :
    byteAt p 0 = byteAt f 0 := by
  obtain ⟨t, rfl⟩ := hp
  exact (byteAt_append (List.length_pos_iff.mpr hne) t).symm

theorem drainStep_startSession (env : Env) {c : Client} {f : Bytes}
    {r : StartSessionReply}
    (hf : tryParseStartSessionReply f = some (r, f.length))
    (hs : c.state ≠ .kvmStarting) (rest : Bytes) :
    (c.holding (f ++ rest)).drainStep env =
      ((c.took (.startSession r)).holding rest).onStartSession env r := by
  have hparse := tryParseStartSessionReply_append hf rest
  have htag := tryParseStartSessionReply_tag hparse
  have hst : (c.holding (f ++ rest)).state ≠ .kvmStarting := hs
  rw [drainStep]
  simp only [holding_inbox, hst, htag, false_and, if_false, if_true, hparse,
    consume_holding]

theorem drainStep_auth (env : Env) {c : Client} {f : Bytes} {r : AuthReply}
    (hf : tryParseAuthReply f = some (r, f.length))
    (hs : c.state ≠ .kvmStarting) (rest : Bytes) :
    (c.holding (f ++ rest)).drainStep env =
      ((c.took (.auth r)).holding rest).onAuthReply env r := by
  have hparse := tryParseAuthReply_append hf rest
  have htag := tryParseAuthReply_tag hparse
  have hst : (c.holding (f ++ rest)).state ≠ .kvmStarting := hs
  rw [drainStep]
  simp only [holding_inbox, hst, htag, false_and, if_false, if_true, hparse,
    consume_holding]
  rfl

theorem waits_startSession (env : Env) {c : Client} {f : Bytes}
    {r : StartSessionReply}
    (hf : tryParseStartSessionReply f = some (r, f.length))
    (hs : c.state ≠ .kvmStarting) : c.Waits env f := by
  intro p hp hne hempty
  have hnone := parse_piece (fun h t => tryParseStartSessionReply_append h t)
    tryParseStartSessionReply_consumed hf hp hne
  have htag := (byteAt_piece hp hempty).trans (tryParseStartSessionReply_tag hf)
  have hst : (c.holding p).state ≠ .kvmStarting := hs
  rw [drainStep]
  simp only [holding_inbox, hst, htag, false_and, if_false, if_true, hnone]

theorem waits_auth (env : Env) {c : Client} {f : Bytes} {r : AuthReply}
    (hf : tryParseAuthReply f = some (r, f.length))
    (hs : c.state ≠ .kvmStarting) : c.Waits env f := by
  intro p hp hne hempty
  have hnone := parse_piece (fun h t => tryParseAuthReply_append h t)
    tryParseAuthReply_consumed hf hp hne
  have htag := (byteAt_piece hp hempty).trans (tryParseAuthReply_tag hf)
  have hst : (c.holding p).state ≠ .kvmStarting := hs
  rw [drainStep]
  simp only [holding_inbox, hst, htag, false_and, if_false, if_true, hnone]
  rfl

/-! The handlers do not look at what is left in the inbox. -/

theorem holding_setState (i : Bytes) (s : State) (c : Client) :
    (c.holding i).setState s = (c.setState s).holding i := by
  rw [setState, setState]
  have hst : (c.holding i).state = c.state := rfl
  rw [hst]
  split <;> rfl

theorem holding_fail (i : Bytes) (error : String) (c : Client) :
    (c.holding i).fail error = (c.fail error).holding i := by
  have hset := holding_setState i .failed
    { c with
      lastError := error
      socket := c.socket.map fun k => { k with isOpen := false } }
  exact congrArg (emit (.failed error)) hset

theorem holding_socketWrite (env : Env) (i : Bytes) (frame : Frame)
    (c : Client) :
    (c.holding i).socketWrite env frame =
      ((c.socketWrite env frame).1.holding i, (c.socketWrite env frame).2) := by
  rw [socketWrite, socketWrite]
  have hk : (c.holding i).socket = c.socket := rfl
  rw [hk]
  cases c.socket <;> rfl

theorem holding_writeThen (env : Env) (i : Bytes) (frame : Frame)
    (next : State) (c : Client) :
    (c.holding i).writeThen env frame next =
      ((c.writeThen env frame next).1.holding i,
        (c.writeThen env frame next).2) := by
  rw [writeThen, writeThen, holding_socketWrite]
  simp only []
  split
  · exact congrArg (·, false) (holding_fail i _ _)
  · exact congrArg (·, true) (holding_setState i next _)

theorem holding_onStartSession (env : Env) (i : Bytes)
    (r : StartSessionReply) (c : Client) :
    (c.holding i).onStartSession env r =
      ((c.onStartSession env r).1.holding i, (c.onStartSession env r).2) := by
  let query (o : Client) : Client × Bool :=
    if o.user.isEmpty then (o, true)
    else o.writeThen env .authQuery .authQuerying
  have hquery (o : Client) :
      query (o.holding i) = ((query o).1.holding i, (query o).2) := by
    have huser : (o.holding i).user = o.user := rfl
    simp only [query, huser]
    split
    · rfl
    · exact holding_writeThen env i _ _ _
  have hopen := holding_setState i .sessionOpened
    (({ c with startStatus := r.status, oemData := r.oemData }).emit
      .sessionOpened)
  rw [onStartSession, onStartSession]
  simp only []
  by_cases hs : r.status ≠ .success
  · rw [if_pos hs, if_pos hs]
    exact congrArg (·, false) (holding_fail i (describe r.status)
      { c with startStatus := r.status, oemData := r.oemData })
  · rw [if_neg hs, if_neg hs]
    exact (congrArg query hopen).trans (hquery _)

/-- Except for the `0x14` that ends a handshake without KVM. -/
theorem holding_onAuthReply (env : Env) (i : Bytes) (r : AuthReply)
    {c : Client} (h : c.state ≠ .authResponding ∨ c.protocol = .kvm) :
    (c.holding i).onAuthReply env r =
      ((c.onAuthReply env r).1.holding i, (c.onAuthReply env r).2) := by
  rw [onAuthReply, onAuthReply]
  have hst : (c.holding i).state = c.state := rfl
  rw [hst]
  cases hc : c.state with
  | authQuerying =>
      simp only []
      split
      · exact congrArg (·, false) (holding_fail i _ _)
      · exact holding_writeThen env i _ _ _
  | authChallenging =>
      simp only []
      split
      · exact congrArg (·, false) (holding_fail i _ _)
      · exact holding_writeThen env i _ _ _
  | authResponding =>
      have hkvm : c.protocol = .kvm := h.resolve_left (absurd hc)
      have hkvm' : (c.holding i).protocol = .kvm := hkvm
      simp only [hkvm, hkvm', if_true]
      split
      · exact congrArg (·, false) (holding_fail i _ _)
      · exact holding_writeThen env i _ _ _
  | _ => exact congrArg (·, false) (holding_fail i _ _)

/-! ## What a step adds to the history -/

end Client

/-- The bytes handed to the application. -/
def Effect.raw? : Effect → Option Bytes
  | .rawBytes chunk => some chunk
  | _ => none

def Effect.received? : Effect → Option Received
  | .consumed _ _ frame => some frame
  | _ => none

namespace Client

/-- From `c` to `d` these frames were taken, and nothing was handed over. -/
def Adds (got : List Received) (c d : Client) : Prop :=
  ∃ es : List Effect, d.out = c.out ++ es ∧ es.filterMap Effect.raw? = [] ∧
    es.filterMap Effect.received? = got

theorem Adds.trans {g₁ g₂ : List Received} {c d e : Client}
    (h₁ : Adds g₁ c d) (h₂ : Adds g₂ d e) : Adds (g₁ ++ g₂) c e := by
  obtain ⟨es₁, hout₁, hraw₁, hgot₁⟩ := h₁
  obtain ⟨es₂, hout₂, hraw₂, hgot₂⟩ := h₂
  refine ⟨es₁ ++ es₂, by rw [hout₂, hout₁, List.append_assoc], ?_, ?_⟩
  · rw [List.filterMap_append, hraw₁, hraw₂, List.nil_append]
  · rw [List.filterMap_append, hgot₁, hgot₂]

theorem Adds.of_out {c d : Client} (h : d.out = c.out) : Adds [] c d :=
  ⟨[], by rw [h, List.append_nil], rfl, rfl⟩

theorem Adds.emit {c : Client} {e : Effect} (hraw : e.raw? = none) :
    Adds e.received?.toList c (c.emit e) := by
  refine ⟨[e], rfl, by simp [hraw], ?_⟩
  cases h : e.received? <;> simp [h]

theorem Adds.setState (c : Client) (s : State) : Adds [] c (c.setState s) := by
  rw [Client.setState]
  split
  · exact .of_out rfl
  · exact ⟨[.stateChanged s], rfl, rfl, rfl⟩

/-- A client in the midst of a handshake: its socket is open and there is a
user to log on. -/
structure At (p : Protocol) (s : State) (c : Client) : Prop where
  state : c.state = s
  protocol : c.protocol = p
  user : c.user ≠ []
  listening : c.listening = true

theorem At.took {p : Protocol} {s : State} {c : Client} (h : c.At p s)
    (frame : Received) : (c.took frame).At p s :=
  ⟨h.state, h.protocol, h.user, h.listening⟩

theorem At.setState {p : Protocol} {s : State} {c : Client} (h : c.At p s)
    (t : State) : (c.setState t).At p t := by
  refine ⟨state_setState c t, ?_, ?_, ?_⟩
  · rw [Client.setState]
    split <;> exact h.protocol
  · rw [Client.setState]
    split <;> exact h.user
  · rw [Client.listening, socket_setState]
    exact h.listening

/-- A socket that takes what is written to it. -/
def TakesWrites (env : Env) : Prop := ∀ n bytes, 0 ≤ env.write n bytes

theorem open_socket {c : Client} (hl : c.listening = true) :
    ∃ k, c.socket = some k ∧ k.isOpen = true := by
  rw [Client.listening] at hl
  cases hk : c.socket with
  | none =>
      rw [hk] at hl
      cases hl
  | some k =>
      rw [hk] at hl
      exact ⟨k, rfl, hl⟩

theorem writeThen_taken {env : Env} (hw : TakesWrites env) {c : Client}
    (hl : c.listening = true) (frame : Frame) (t : State) :
    ∃ k r, c.writeThen env frame t =
      ((({ c with writes := c.writes + 1 }).emit (.wrote k frame r)).setState t,
        true) := by
  obtain ⟨k, hk, hopen⟩ := open_socket hl
  have hsock : c.socketWrite env frame =
      (({ c with writes := c.writes + 1 }).emit
          (.wrote k.id frame (env.write c.writes frame.bytes)),
        env.write c.writes frame.bytes) := by
    rw [socketWrite, hk]
    simp only [hopen, if_true]
  refine ⟨k.id, env.write c.writes frame.bytes, ?_⟩
  rw [Client.writeThen, hsock]
  exact if_neg (Int.not_lt.mpr (hw _ _))

theorem At.writeThen {env : Env} (hw : TakesWrites env) {p : Protocol}
    {s : State} {c : Client} (h : c.At p s) (frame : Frame) (t : State) :
    (c.writeThen env frame t).2 = true ∧ (c.writeThen env frame t).1.At p t ∧
      Adds [] c (c.writeThen env frame t).1 := by
  obtain ⟨k, r, hwrite⟩ := writeThen_taken hw h.listening frame t
  have hat : (({ c with writes := c.writes + 1 }).emit
      (.wrote k frame r)).At p s :=
    ⟨h.state, h.protocol, h.user, h.listening⟩
  rw [hwrite]
  refine ⟨rfl, hat.setState t, ?_⟩
  exact Adds.trans ⟨[.wrote k frame r], rfl, rfl, rfl⟩
    (Adds.setState _ t)

/-! ## Each frame of the handshake -/

/-- The `0x11` that says the session is open. -/
theorem At.takes_startSession {env : Env} (hw : TakesWrites env)
    {p : Protocol} {c : Client} (h : c.At p .selectorSent) {f : Bytes}
    {r : StartSessionReply}
    (hf : tryParseStartSessionReply f = some (r, f.length))
    (hr : r.status = .success) :
    ∃ d, Takes env c f d ∧ d.At p .authQuerying ∧
      Adds [.startSession r] c d := by
  have hs : c.state ≠ .kvmStarting := by rw [h.state]; decide
  let b : Client := ({ c.took (.startSession r) with
    startStatus := r.status, oemData := r.oemData } : Client).emit
      .sessionOpened
  have hb : b.At p .selectorSent :=
    ⟨h.state, h.protocol, h.user, h.listening⟩
  let o := b.setState .sessionOpened
  have hat : o.At p .sessionOpened := hb.setState _
  obtain ⟨hflag, hq, hadds⟩ := hat.writeThen hw .authQuery .authQuerying
  have hrun : (c.took (.startSession r)).onStartSession env r =
      o.writeThen env .authQuery .authQuerying := by
    have huser : ¬ o.user.isEmpty = true := by simpa using hat.user
    have hok : ¬ r.status ≠ .success := by simpa using hr
    exact (if_neg hok).trans (if_neg huser)
  refine ⟨(o.writeThen env .authQuery .authQuerying).1, ⟨⟨h.listening, ?_⟩,
    ?_, fun rest => ?_, waits_startSession env hf hs⟩, hq, ?_⟩
  · rw [h.state]
    decide
  · rintro rfl
    exact absurd (tryParseStartSessionReply_tag hf) (by decide)
  · rw [drainStep_startSession env hf hs, holding_onStartSession, hrun, hflag]
  · have hopen : Adds [.startSession r] c b :=
      ⟨[.consumed c.socketId c.state (.startSession r), .sessionOpened],
        by simp [b, Client.took, Client.emit], rfl, rfl⟩
    exact (hopen.trans (Adds.setState b _)).trans hadds

/-- A `0x14` the client answers with a frame of its own. -/
theorem At.takes_auth {env : Env} {p : Protocol} {s t : State} {c : Client}
    (h : c.At p s) (hs : s ≠ .kvmStarting) (hdone : s ≠ .authenticated)
    (hopen : s ≠ .authResponding ∨ p = .kvm) {f : Bytes} {r : AuthReply}
    (hf : tryParseAuthReply f = some (r, f.length))
    (hanswer : ∀ c' : Client, c'.At p s → (c'.onAuthReply env r).2 = true ∧
      (c'.onAuthReply env r).1.At p t ∧ Adds [] c' (c'.onAuthReply env r).1) :
    ∃ d, Takes env c f d ∧ d.At p t ∧ Adds [.auth r] c d := by
  have hst : c.state ≠ .kvmStarting := by rw [h.state]; exact hs
  obtain ⟨hflag, hat, hadds⟩ := hanswer _ (h.took (.auth r))
  have hkeep : (c.took (.auth r)).state ≠ .authResponding ∨
      (c.took (.auth r)).protocol = .kvm := by
    rw [(h.took _).state, (h.took _).protocol]
    exact hopen
  refine ⟨((c.took (.auth r)).onAuthReply env r).1, ⟨⟨h.listening, ?_⟩, ?_,
    fun rest => ?_, waits_auth env hf hst⟩, hat, ?_⟩
  · rw [h.state]
    exact hdone
  · rintro rfl
    exact absurd (tryParseAuthReply_tag hf) (by decide)
  · rw [drainStep_auth env hf hst, holding_onAuthReply env rest r hkeep, hflag]
  · exact Adds.trans (Adds.emit rfl) hadds

theorem At.onOffer {env : Env} (hw : TakesWrites env) {p : Protocol}
    {c : Client} (h : c.At p .authQuerying) {r : AuthReply}
    (hr : r.caps.hasDigestWithQop = true) :
    (c.onAuthReply env r).2 = true ∧
      (c.onAuthReply env r).1.At p .authChallenging ∧
      Adds [] c (c.onAuthReply env r).1 := by
  rw [onAuthReply, h.state]
  simp only [hr, Bool.not_true, Bool.false_eq_true, if_false]
  exact h.writeThen hw _ _

theorem At.onChallenge {env : Env} (hw : TakesWrites env) {p : Protocol}
    {c : Client} (h : c.At p .authChallenging) {r : AuthReply}
    (hs : r.status = 1) (hrealm : r.realm ≠ []) (hnonce : r.nonce ≠ []) :
    (c.onAuthReply env r).2 = true ∧
      (c.onAuthReply env r).1.At p .authResponding ∧
      Adds [] c (c.onAuthReply env r).1 := by
  have hok : ¬ (r.status ≠ 1 ∨ r.realm.isEmpty ∨ r.nonce.isEmpty) := by
    simp [hs, hrealm, hnonce]
  rw [onAuthReply, h.state]
  simp only [if_neg hok]
  exact h.writeThen hw _ _

theorem At.onKvmAccept {env : Env} (hw : TakesWrites env) {c : Client}
    (h : c.At .kvm .authResponding) {r : AuthReply} (hs : r.status = 0) :
    (c.onAuthReply env r).2 = true ∧
      (c.onAuthReply env r).1.At .kvm .kvmStarting ∧
      Adds [] c (c.onAuthReply env r).1 := by
  rw [onAuthReply, h.state]
  simp only [hs, h.protocol, ne_eq, not_true_eq_false, if_false, if_true]
  exact h.writeThen hw _ _

/-! ## The frame the payload follows -/

theorem handOver_given (leftover : Bytes) (c : Client) :
    ∃ raws : List Bytes, raws.flatten = leftover ∧
      c.handOver leftover = (c.handOver []).given raws := by
  rw [handOver, handOver]
  simp only [List.isEmpty_nil, if_true]
  split
  next hempty =>
    refine ⟨[], ?_, ?_⟩
    · simpa using hempty.symm
    · simp only [given, List.map_nil, List.append_nil]
  next => exact ⟨[leftover], by simp, rfl⟩

theorem At.handOver {p : Protocol} {s : State} {c : Client} (h : c.At p s) :
    (c.handOver []).At p .authenticated ∧ Adds [] c (c.handOver []) := by
  have hset := h.setState .authenticated
  refine ⟨⟨hset.state, hset.protocol, hset.user, hset.listening⟩, ?_⟩
  exact Adds.trans (Adds.setState c .authenticated) (Adds.emit rfl)

theorem inbox_handOver (c : Client) : (c.handOver []).inbox = c.inbox := by
  change (c.setState .authenticated).inbox = c.inbox
  rw [Client.setState]
  split <;> rfl

theorem onAuthReply_accept (env : Env) {c : Client} {r : AuthReply}
    (hs : c.state = .authResponding) (hp : c.protocol ≠ .kvm)
    (hr : r.status = 0) :
    c.onAuthReply env r = ((c.holding []).handOver c.inbox, false) := by
  unfold onAuthReply
  split
  next h => rw [hs] at h; cases h
  next h => rw [hs] at h; cases h
  next => rw [if_neg (by simp [hr]), if_neg hp]; rfl
  next hother => exact absurd hs hother

/-- The `0x14` that accepts, where there is no KVM stream to start. -/
theorem At.ends_accept {env : Env} {p : Protocol} {c : Client}
    (h : c.At p .authResponding) (hp : p ≠ .kvm) {f : Bytes} {r : AuthReply}
    (hf : tryParseAuthReply f = some (r, f.length)) (hr : r.status = 0) :
    ∃ d, Ends env c f d ∧ d.At p .authenticated ∧ d.inbox = [] ∧
      Adds [.auth r] c d := by
  have hst : c.state ≠ .kvmStarting := by rw [h.state]; decide
  have hat : ((c.took (.auth r)).holding []).At p .authResponding :=
    ⟨h.state, h.protocol, h.user, h.listening⟩
  refine ⟨((c.took (.auth r)).holding []).handOver [], ⟨⟨h.listening, ?_⟩, ?_,
    fun rest => ?_, waits_auth env hf hst⟩, hat.handOver.1, inbox_handOver _, ?_⟩
  · rw [h.state]
    decide
  · rintro rfl
    exact absurd (tryParseAuthReply_tag hf) (by decide)
  · obtain ⟨raws, hraws, hgiven⟩ :=
      handOver_given rest ((c.took (.auth r)).holding [])
    refine ⟨raws, hraws, ?_⟩
    have hnow : ((c.took (.auth r)).holding rest).state = .authResponding :=
      h.state
    have hnot : ((c.took (.auth r)).holding rest).protocol ≠ .kvm := by
      intro hk
      exact hp (h.protocol.symm.trans hk)
    rw [drainStep_auth env hf hst, onAuthReply_accept env hnow hnot hr]
    exact congrArg (·, false) hgiven
  · have htook : Adds [.auth r] c ((c.took (.auth r)).holding []) :=
      ⟨[.consumed c.socketId c.state (.auth r)], rfl, rfl, rfl⟩
    exact htook.trans hat.handOver.2

/-- The `0x41` that says the KVM stream runs. -/
theorem At.ends_kvm (env : Env) {p : Protocol} {c : Client}
    (h : c.At p .kvmStarting) {f : Bytes} (hlen : f.length = 8)
    (htag : byteAt f 0 = 0x41) :
    ∃ d, Ends env c f d ∧ d.At p .authenticated ∧ d.inbox = [] ∧
      Adds [.kvmStarted f] c d := by
  have hat : ((c.took (.kvmStarted f)).holding []).At p .kvmStarting :=
    ⟨h.state, h.protocol, h.user, h.listening⟩
  have hne : f ≠ [] := by
    rintro rfl
    cases hlen
  have hstep (i : Bytes) : (c.holding i).state = .kvmStarting := h.state
  refine ⟨((c.took (.kvmStarted f)).holding []).handOver [],
    ⟨⟨h.listening, ?_⟩, hne, fun rest => ?_, fun p hp hpne hempty => ?_⟩,
    hat.handOver.1, inbox_handOver _, ?_⟩
  · rw [h.state]
    decide
  · obtain ⟨raws, hraws, hgiven⟩ :=
      handOver_given rest ((c.took (.kvmStarted f)).holding [])
    refine ⟨raws, hraws, ?_⟩
    have hfirst : byteAt (f ++ rest) 0 = 0x41 :=
      (byteAt_append (by omega) rest).trans htag
    have hlong : ¬ (f ++ rest).length < 8 := by
      rw [List.length_append]
      omega
    have htake : (f ++ rest).take 8 = f := List.take_left' hlen
    have hdrop : (f ++ rest).drop 8 = rest := List.drop_left' hlen
    rw [drainStep]
    simp only [holding_inbox, hstep, hfirst, and_self, if_true, hlong,
      if_false, htake, hdrop]
    refine Eq.trans ?_ (congrArg (·, false) hgiven)
    have hall := consume_holding (f ++ rest) [] (.kvmStarted f) c
    rw [List.append_nil] at hall
    rw [hall]
  · have hshort := length_piece hp hpne
    have hfirst := (byteAt_piece hp hempty).trans htag
    rw [drainStep]
    simp only [holding_inbox, hstep, hfirst, and_self, if_true]
    exact if_pos (by omega)
  · have htook : Adds [.kvmStarted f] c
        ((c.took (.kvmStarted f)).holding []) :=
      ⟨[.consumed c.socketId c.state (.kvmStarted f)], rfl, rfl, rfl⟩
    exact htook.trans hat.handOver.2

end Client

/-! ## Every cut -/

/-- What a device sends to let the user in: each frame parses to the end, and
says yes. -/
structure Handshake where
  opened : Bytes
  openedReply : StartSessionReply
  opened_parses :
    tryParseStartSessionReply opened = some (openedReply, opened.length)
  opened_success : openedReply.status = .success
  offer : Bytes
  offerReply : AuthReply
  offer_parses : tryParseAuthReply offer = some (offerReply, offer.length)
  offer_digest : offerReply.caps.hasDigestWithQop = true
  challenge : Bytes
  challengeReply : AuthReply
  challenge_parses :
    tryParseAuthReply challenge = some (challengeReply, challenge.length)
  challenge_status : challengeReply.status = 1
  challenge_realm : challengeReply.realm ≠ []
  challenge_nonce : challengeReply.nonce ≠ []
  accept : Bytes
  acceptReply : AuthReply
  accept_parses : tryParseAuthReply accept = some (acceptReply, accept.length)
  accept_status : acceptReply.status = 0
  kvmStarted : Bytes
  kvmStarted_length : kvmStarted.length = 8
  kvmStarted_tag : byteAt kvmStarted 0 = 0x41

namespace Handshake

/-- The frames of the handshake; only KVM has the last. -/
def frames (h : Handshake) (p : Protocol) : List Bytes :=
  [h.opened, h.offer, h.challenge, h.accept] ++
    if p = .kvm then [h.kvmStarted] else []

/-- What they say. -/
def replies (h : Handshake) (p : Protocol) : List Received :=
  [.startSession h.openedReply, .auth h.offerReply, .auth h.challengeReply,
    .auth h.acceptReply] ++
    if p = .kvm then [.kvmStarted h.kvmStarted] else []

/-- A client whose selector is out follows the handshake to its end. -/
theorem script (h : Handshake) {env : Env} (hw : Client.TakesWrites env)
    {p : Protocol} {c : Client} (hc : c.At p .selectorSent) :
    ∃ d, Client.Script env c (h.frames p) d ∧ d.At p .authenticated ∧
      d.inbox = [] ∧ Client.Adds (h.replies p) c d := by
  obtain ⟨c₁, ht₁, hc₁, ha₁⟩ :=
    hc.takes_startSession hw h.opened_parses h.opened_success
  obtain ⟨c₂, ht₂, hc₂, ha₂⟩ :=
    hc₁.takes_auth (by decide) (by decide) (.inl (by decide)) h.offer_parses
      fun c' h' => h'.onOffer hw h.offer_digest
  obtain ⟨c₃, ht₃, hc₃, ha₃⟩ :=
    hc₂.takes_auth (by decide) (by decide) (.inl (by decide))
      h.challenge_parses fun c' h' => h'.onChallenge hw h.challenge_status
        h.challenge_realm h.challenge_nonce
  have hadds := (ha₁.trans ha₂).trans ha₃
  by_cases hp : p = .kvm
  · subst hp
    obtain ⟨c₄, ht₄, hc₄, ha₄⟩ :=
      hc₃.takes_auth (by decide) (by decide) (.inr rfl) h.accept_parses
        fun c' h' => h'.onKvmAccept hw h.accept_status
    obtain ⟨d, he, hd, hin, ha⟩ :=
      hc₄.ends_kvm env h.kvmStarted_length h.kvmStarted_tag
    exact ⟨d, .next ht₁ (.next ht₂ (.next ht₃ (.next ht₄ (.last he)))), hd,
      hin, (hadds.trans ha₄).trans ha⟩
  · obtain ⟨d, he, hd, hin, ha⟩ :=
      hc₃.ends_accept hp h.accept_parses h.accept_status
    refine ⟨d, ?_, hd, hin, ?_⟩
    · rw [frames, if_neg hp]
      exact .next ht₁ (.next ht₂ (.next ht₃ (.last he)))
    · rw [replies, if_neg hp]
      exact hadds.trans ha

end Handshake

/-- Behind a handshake the payload comes out as it went in. What else the
client does, the frames it writes and the frames it takes, is one history for
all payloads and all cuts. -/
theorem stream_handover (env : Env) (hw : Client.TakesWrites env)
    (c : Client) (hs : c.state = .selectorSent) (hin : c.inbox = [])
    (hl : c.listening = true) (hu : c.user ≠ []) (h : Handshake) :
    ∃ es : List Effect, es.filterMap Effect.raw? = [] ∧
      es.filterMap Effect.received? = h.replies c.protocol ∧
      ∀ (chunks : List Bytes) (app : Bytes),
        chunks.flatten = (h.frames c.protocol).flatten ++ app →
        ∃ raws : List Bytes, raws.flatten = app ∧
          (run (Client.handle env) c (chunks.map .readyRead)).out =
            c.out ++ es ++ raws.map .rawBytes ∧
          (run (Client.handle env) c (chunks.map .readyRead)).state =
            .authenticated ∧
          (run (Client.handle env) c (chunks.map .readyRead)).inbox = [] := by
  obtain ⟨d, hscript, hd, hempty, es, hout, hraw, hgot⟩ :=
    h.script hw ⟨hs, rfl, hu, hl⟩
  refine ⟨es, hraw, hgot, fun chunks app hchunks => ?_⟩
  obtain ⟨raws, happ, hrun⟩ := hscript.handsOver hd.state hd.listening hchunks
  have hc : c.holding [] = c := by
    rw [Client.holding, ← hin]
  rw [hc] at hrun
  refine ⟨raws, happ, ?_⟩
  rw [hrun, ← hout]
  exact ⟨rfl, hd.state, hempty⟩

def Handshake.plain : Handshake where
  opened := sessionStarted
  openedReply := ⟨.success, []⟩
  opened_parses := by decide
  opened_success := rfl
  offer := digestOffered
  offerReply := ⟨0, 0, { hasDigestWithQop := true }, [], [], []⟩
  offer_parses := by decide
  offer_digest := rfl
  challenge := digestChallenge
  challengeReply := ⟨1, 4, {}, [0x72], [0x6E], []⟩
  challenge_parses := by decide
  challenge_status := rfl
  challenge_realm := by decide
  challenge_nonce := by decide
  accept := handshakeAccepted
  acceptReply := ⟨0, 4, {}, [], [], []⟩
  accept_parses := by decide
  accept_status := rfl
  kvmStarted := kvmStartedReply
  kvmStarted_length := rfl
  kvmStarted_tag := rfl

/-- Three bytes of a KVM stream, the first two in one chunk with the end of
the `0x41`. -/
theorem stream_handover_kvm :
    ∃ (es : List Effect) (raws : List Bytes), raws.flatten = [1, 2, 3] ∧
      (run (Client.handle .plain)
          (run (Client.handle .plain) { user := [0x61] } kvmConnected)
          ([sessionStarted ++ digestOffered.take 4,
            digestOffered.drop 4 ++ digestChallenge,
            handshakeAccepted ++ kvmStartedReply.take 3,
            kvmStartedReply.drop 3 ++ [1, 2], [3]].map .readyRead)).out =
        (run (Client.handle .plain) { user := [0x61] } kvmConnected).out ++
          es ++ raws.map .rawBytes := by
  obtain ⟨es, -, -, h⟩ := stream_handover .plain
    (fun _ bytes => Int.natCast_nonneg bytes.length)
    (run (Client.handle .plain) { user := [0x61] } kvmConnected)
    (by decide) (by decide) (by decide) (by decide) .plain
  obtain ⟨raws, hraws, hout, -⟩ := h
    [sessionStarted ++ digestOffered.take 4,
      digestOffered.drop 4 ++ digestChallenge,
      handshakeAccepted ++ kvmStartedReply.take 3,
      kvmStartedReply.drop 3 ++ [1, 2], [3]] [1, 2, 3] (by decide)
  exact ⟨es, raws, hraws, hout⟩

end QuMesh.Redir
