import Mathlib.Data.List.Basic
import Mathlib.Tactic.Basic

/-!
Machines that read a sequence symbol by symbol and may refuse. A refusal is final, so it is known
as soon as the start of the sequence is. `Scans` says where a machine is after a sequence that it
did not refuse, and that it refuses none that is safe.
-/

namespace DirectTrade.Library.Scanning

variable {σ α : Type}

def run (step : σ → α → Option σ) (s : σ) (t : List α) : Option σ := t.foldlM step s

variable {step : σ → α → Option σ}

theorem run_append (s : σ) (t u : List α) :
    run step s (t ++ u) = (run step s t).bind (run step · u) := by
  unfold run
  rw [List.foldlM_append]
  rfl

theorem run_cons (s : σ) (a : α) (t : List α) :
    run step s (a :: t) = (step s a).bind (run step · t) := by
  unfold run
  rw [List.foldlM_cons]
  rfl

/-- Reading a sequence either refuses it, and then it is not safe, or leads where `post` says. -/
def Scans (step : σ → α → Option σ) (s : σ) (t : List α) (safe : Prop) (post : σ → Prop) : Prop :=
  match run step s t with
  | none => ¬ safe
  | some s' => post s'

namespace Scans

variable {s : σ} {t u : List α} {p q : Prop} {mid post post' : σ → Prop}

theorem nil (h : post s) : Scans step s [] p post := h

theorem append (h : Scans step s t p mid) (hnext : ∀ s', mid s' → Scans step s' u q post) :
    Scans step s (t ++ u) (p ∧ q) post := by
  unfold Scans at h ⊢
  rw [run_append]
  cases hrun : run step s t with
  | none =>
    rw [hrun] at h
    exact fun hsafe => h hsafe.1
  | some s' =>
    rw [hrun] at h
    have hrest := hnext s' h
    unfold Scans at hrest
    rw [Option.bind_some]
    cases hrun' : run step s' u with
    | none =>
      rw [hrun'] at hrest
      exact fun hsafe => hrest hsafe.2
    | some s'' =>
      rw [hrun'] at hrest
      exact hrest

theorem mono (h : Scans step s t p post) (hsafe : q → p) (hpost : ∀ s', post s' → post' s') :
    Scans step s t q post' := by
  unfold Scans at h ⊢
  cases hrun : run step s t with
  | none =>
    rw [hrun] at h
    exact fun hq => h (hsafe hq)
  | some s' =>
    rw [hrun] at h
    exact hpost s' h

/-- Two parts of a sequence that are safe when the whole is. -/
theorem seq (h : Scans step s t p mid) (hnext : ∀ s', mid s' → Scans step s' u p post) :
    Scans step s (t ++ u) p post :=
  (h.append hnext).mono (fun hp => ⟨hp, hp⟩) fun _ h' => h'

/-- What is refused after a sequence is refused with it. -/
theorem fails (h : Scans step s t p mid) (hnext : ∀ s', mid s' → run step s' u = none) :
    run step s (t ++ u) = none := by
  unfold Scans at h
  rw [run_append]
  cases hrun : run step s t with
  | none => rfl
  | some s' =>
    rw [hrun] at h
    exact hnext s' h

/-- A safe sequence is read to its end. -/
theorem returns (h : Scans step s t p post) (hp : p) : ∃ s', run step s t = some s' ∧ post s' := by
  unfold Scans at h
  cases hrun : run step s t with
  | none =>
    rw [hrun] at h
    exact absurd hp h
  | some s' =>
    rw [hrun] at h
    exact ⟨s', rfl, h⟩

end Scans

end DirectTrade.Library.Scanning
