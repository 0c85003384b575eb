import QuMesh.App.BusyFlows

/-!
# The controller is busy while a flow is under way

A method may give up, an operation may fail, and a reply may come at any time:
inside the call that sent the request, between two methods, while another
method runs. `Method.fits` is all that is to be seen of the methods, that each
of them hands on or ends the flow it starts whichever way its tests go. The
rest is the rule of counted flows.
-/

namespace QuMesh.Details

open QuMesh.Lib

theorem Refresh.fits (r : Refresh) : (Flow.refresh r).fits false = true := by
  cases r with
  | whole kind => cases kind <;> rfl
  | optInStatus => rfl
  | powerSchemes => rfl

theorem Method.fits (m : Method) : m.body.fits false = true := by
  cases m with
  | refresh r => exact r.fits
  | _ => rfl

namespace Inflight

/-- What the counter says of the flows. A flow is carried by the code that
runs on its behalf or by the callback it waits for. -/
structure Balanced (s : Inflight) : Prop where
  counter : s.counter = s.underWay.length
  carried : s.underWay.Perm s.carried
  endedOnce : s.ended.Nodup
  outstanding : s.running = [] → s.counter = s.waiting.length
  busy : s.busy = true ↔ s.underWay ≠ []

theorem balanced {s : Inflight} (h : Flows.Kept s) : s.Balanced := by
  have hcounter : s.counter = s.underWay.length := by
    rw [h.counter, h.underWay.length_eq]
  refine ⟨hcounter, h.underWay, h.ended_nodup, h.counter_waiting, ?_⟩
  rw [busy, decide_eq_true_iff, hcounter, List.length_pos_iff]

theorem kept (turns : List (Flows.Turn Method)) : Flows.Kept (run step {} turns) :=
  history (fun _ (s : Inflight) => Flows.Kept s)
    (fun _ _ t hs => hs.step Method.fits t) turns Flows.kept_none

end Inflight

/-- In every run, and no step of it lowers the counter at zero. -/
theorem busy_balanced (turns : List (Flows.Turn Method)) :
    (run Inflight.step {} turns).Balanced ∧
      ∀ p ∈ trail Inflight.step {} turns, p.1.lowers p.2 → 0 < p.1.counter := by
  refine ⟨Inflight.balanced (Inflight.kept turns), fun p hp hlowers => ?_⟩
  obtain ⟨before, hbefore⟩ := trail_run hp
  have hkept : Flows.Kept p.1 := by
    rw [hbefore]
    exact Inflight.kept before
  exact hkept.lowers_pos hlowers

/-- The reply comes inside the call, and the flow is over before the method
is. -/
example : run Inflight.step {} [.invoke .cancelOptIn, .go true, .go true,
    .reply 0, .go true] =
      { running := [⟨none, .done⟩, ⟨none, .done⟩], started := 1,
        ended := [0] } := by decide

end QuMesh.Details
