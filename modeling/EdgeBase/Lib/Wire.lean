import EdgeBase.Lib.Audit

/-!
# Calls over an unreliable wire

A caller sends requests to a peer that keeps a state.  A call may fail before the peer received the
request or after the peer served it, and the caller cannot tell which; either way the peer may have
lost what it held in memory.

* `Delivery` : the fate of one call.
* `Wire.send_cases` : one call logs nothing or what the peer does in the state it is in.
-/

inductive Delivery where
  | answered
  /-- The call fails before the peer gets the request. -/
  | lost (resets : Bool)
  /-- The call fails after the peer served the request. -/
  | cut (resets : Bool)
  deriving DecidableEq

/-- A peer, and the fates of the calls to it; what is not listed is answered. -/
structure Wire (σ : Type) where
  peer : σ
  fates : List Delivery := []

namespace Wire

variable {σ τ ε α : Type}

def afterFailure (crash : σ → σ) (resets : Bool) (s : σ) : σ := if resets then crash s else s

/-- One call to a peer that answers, changes its state and does something. -/
def send (crash : σ → σ) (failure : ε) (serve : σ → α × σ × List τ) : Audited (Wire σ) τ ε α :=
  fun w =>
    let out := serve w.peer
    match w.fates with
    | .lost resets :: fates => ⟨.error failure, ⟨afterFailure crash resets w.peer, fates⟩, []⟩
    | .cut resets :: fates => ⟨.error failure, ⟨afterFailure crash resets out.2.1, fates⟩, out.2.2⟩
    | .answered :: fates => ⟨.ok out.1, ⟨out.2.1, fates⟩, out.2.2⟩
    | [] => ⟨.ok out.1, ⟨out.2.1, []⟩, out.2.2⟩

variable {crash : σ → σ} {failure : ε} {serve : σ → α × σ × List τ} {w : Wire σ}

theorem send_cases (crash : σ → σ) (failure : ε) (serve : σ → α × σ × List τ) (w : Wire σ) :
    ((send crash failure serve w).result = .ok (serve w.peer).1 ∧
      (send crash failure serve w).state.peer = (serve w.peer).2.1 ∧
      (send crash failure serve w).log = (serve w.peer).2.2) ∨
    ((send crash failure serve w).result = .error failure ∧ ((send crash failure serve w).log = [] ∨
        (send crash failure serve w).log = (serve w.peer).2.2)) := by
  obtain ⟨peer, _ | ⟨_ | _ | _, fates⟩⟩ := w
  · exact .inl ⟨rfl, rfl, rfl⟩
  · exact .inl ⟨rfl, rfl, rfl⟩
  · exact .inr ⟨rfl, .inl rfl⟩
  · exact .inr ⟨rfl, .inr rfl⟩

end Wire
