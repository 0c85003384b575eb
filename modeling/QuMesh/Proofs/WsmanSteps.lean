import QuMesh.Wsman.Client

/-!
# What the operations of `WsmanClient` leave alone

The client's functions are compositions of four small ones (`withReply`,
`withAttempt`, `newAttempt`, `emit`) and of the reading code, which changes a
reply and nothing else. Here is what each of these does to the fields the
theorems about whole runs look at, and the numbering discipline of replies and
attempts that such runs keep.
-/

namespace QuMesh.Wsman

open QuMesh.Lib

/-! ## Reading changes only what was read -/

namespace Reply

/-- A reply without the fields a response is read into. -/
def unread (rd : Reply) : Reply :=
  { rd with
    httpStatus := 0
    body := []
    responseBuffer := []
    responseHeaders := []
    state := .idle
    expectedBody := -1
    currentChunkRemaining := 0
    readingChunkSize := true }

theorem bodyMode_unread (rd : Reply) : rd.bodyMode.1.unread = rd.unread := by
  unfold bodyMode
  simp only []
  split
  · rfl
  · split
    · split
      · rfl
      · split <;> rfl
    · rfl

theorem readContentLength_unread (connected : Bool) (rd : Reply) :
    (rd.readContentLength connected).1.unread = rd.unread := by
  unfold readContentLength
  simp only []
  split
  · split <;> rfl
  · split <;> rfl

theorem chunkData_unread (rd : Reply) : rd.chunkData.1.unread = rd.unread := by
  unfold chunkData
  simp only []
  split
  · rfl
  · split
    · rfl
    · split
      · split <;> rfl
      · rfl

theorem chunkStep_unread (rd : Reply) : rd.chunkStep.1.unread = rd.unread := by
  unfold chunkStep
  split
  · split
    · rfl
    · simp only []
      split
      · rfl
      · split
        · rfl
        · exact chunkData_unread _
  · exact chunkData_unread rd

theorem chunkLoop_unread (fuel : Nat) (rd : Reply) :
    (chunkLoop fuel rd).1.unread = rd.unread := by
  induction fuel generalizing rd with
  | zero => rfl
  | succ fuel ih =>
      have hstep := chunkStep_unread rd
      rw [chunkLoop]
      split
      next heq =>
        rw [heq] at hstep
        exact hstep
      next heq =>
        rw [heq] at hstep
        rw [ih]
        exact hstep

theorem readBody_unread (connected : Bool) (rd : Reply) :
    (rd.readBody connected).1.unread = rd.unread := by
  unfold readBody
  split
  · exact readContentLength_unread connected rd
  · exact chunkLoop_unread _ rd
  · rfl

theorem readHeaders_unread (connected : Bool) (rawHeaders : Bytes)
    (rd : Reply) :
    (rd.readHeaders connected rawHeaders).1.unread = rd.unread := by
  unfold readHeaders
  split
  · simp only []
    split
    · rfl
    · split
      next heq =>
        exact (congrArg (fun p => p.1.unread) heq).symm.trans
          (bodyMode_unread _)
      next heq =>
        rw [readBody_unread]
        exact (congrArg (fun p => p.1.unread) heq).symm.trans
          (bodyMode_unread _)
  · rfl

/-- A pass over a chunk changes only the fields a response is read into. -/
theorem readPass_unread (connected : Bool) (chunk : Bytes) (rd : Reply) :
    (rd.readPass connected chunk).1.unread = rd.unread := by
  unfold readPass
  split
  · rfl
  · simp only []
    split
    · split
      · rfl
      · exact readHeaders_unread _ _ _
    · exact readBody_unread _ _

theorem live_of_unread {rd rd' : Reply} (h : rd'.unread = rd.unread) :
    rd'.live = rd.live := by
  show rd'.unread.live = rd.unread.live
  rw [h]

theorem live_iff {rd : Reply} :
    rd.live = true ↔ rd.alive = true ∧ rd.finished = false := by
  simp [live]

theorem live_of {rd : Reply} (halive : rd.alive = true)
    (hf : ¬ rd.finished = true) : rd.live = true :=
  live_iff.mpr ⟨halive, eq_false_of_ne_true hf⟩

end Reply

/-! ## The small operations -/

namespace Client

variable {c : Client}

theorem withReply_replies (r s : Nat) (f : Reply → Reply) :
    (c.withReply r f).replies s =
      if s = r then f (c.replies r) else c.replies s := by
  exact Function.update_apply ..

theorem withAttempt_attempts (a b : Nat) (f : Attempt → Attempt) :
    (c.withAttempt a f).attempts b =
      if b = a then f (c.attempts a) else c.attempts b := by
  exact Function.update_apply ..

theorem newAttempt_attempts (t : Attempt) (b : Nat) :
    (c.newAttempt t).attempts b =
      if b = c.nextAttempt then t else c.attempts b := by
  exact Function.update_apply ..

/-- A field every update keeps is the field it was. -/
theorem withReply_field {β : Type} (g : Reply → β) (r s : Nat)
    (f : Reply → Reply) (h : g (f (c.replies r)) = g (c.replies r)) :
    g ((c.withReply r f).replies s) = g (c.replies s) := by
  rw [withReply_replies]
  split
  next heq => rw [heq, h]
  next => rfl

theorem withAttempt_field {β : Type} (g : Attempt → β) (a b : Nat)
    (f : Attempt → Attempt) (h : g (f (c.attempts a)) = g (c.attempts a)) :
    g ((c.withAttempt a f).attempts b) = g (c.attempts b) := by
  rw [withAttempt_attempts]
  split
  next heq => rw [heq, h]
  next => rfl

/-- What an update does not bring about was there before it. -/
theorem withReply_imp {p : Reply → Prop} {r : Nat} {f : Reply → Reply}
    (h : p (f (c.replies r)) → p (c.replies r)) (s : Nat)
    (hs : p ((c.withReply r f).replies s)) : p (c.replies s) := by
  rw [withReply_replies] at hs
  split at hs
  next heq => exact heq ▸ h hs
  next => exact hs

theorem withAttempt_imp {p : Attempt → Prop} {a : Nat}
    {f : Attempt → Attempt} (h : p (f (c.attempts a)) → p (c.attempts a))
    (b : Nat) (hb : p ((c.withAttempt a f).attempts b)) :
    p (c.attempts b) := by
  rw [withAttempt_attempts] at hb
  split at hb
  next heq => exact heq ▸ h hb
  next => exact hb

/-! ## Numbering -/

/-- Numbers are given out in order, and an attempt belongs to a reply that
has its number. -/
structure Tidy (c : Client) : Prop where
  issued : ∀ r, (c.replies r).alive = true → r < c.nextReply
  opened : ∀ a, (c.attempts a).stage ≠ .settled → a < c.nextAttempt
  owners : ∀ a < c.nextAttempt, (c.attempts a).reply < c.nextReply

theorem tidy_fresh : ({} : Client).Tidy where
  issued _ h := by cases h
  opened _ h := absurd rfl h
  owners _ h := absurd h (Nat.not_lt_zero _)

end Client

end QuMesh.Wsman
