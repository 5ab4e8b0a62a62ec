import Emu51.Chip.Hooks
import Emu51.Machine.Events
import Emu51.Machine.Setup

/-!
# Sending

What a run sends over the connection are the bytes that the firmware writes to `SBUF`: each of them
once, in order, and nothing else. No hook, interrupt or received byte comes in between, and it does
not matter whether the firmware waits for `TI`. The serial log is another matter: the listener
appends the bytes it receives to it, too, and so it is left out here.
-/

namespace Emu51

open Chip

/-- The bytes among the given writes that go to `SBUF`. -/
def sentBytes (w : List (Byte × Byte)) : List Byte :=
  (w.filter fun x => x.1 = SBUF).map Prod.snd

namespace Machine

variable {σ : Type} {script : Script σ} {m m' m₀ : Machine σ}

/-! ## What is sent by one access -/

/-- Effects other than a write to `SBUF` send nothing. -/
lemma SfrEffects.uartOut {ok : Byte → Byte → Prop} (hok : ∀ v, ¬ok SBUF v)
    (h : SfrEffects ok m m') : m'.uartOut = m.uartOut := by
  refine h.invariant (I := fun m' => m'.uartOut = m.uartOut) (fun m₁ m₂ hm he => ?_) rfl
  refine Eq.trans ?_ hm
  cases he with
  | outside h => exact h.uartOut
  | transmit h => exact absurd h (hok _)
  | notify a =>
    obtain ⟨l0, l1, hl⟩ := m₁.sfrNotify_eq a
    rw [hl]
    rfl
  | _ => rfl

/-- The bytes of the given writes have been sent. -/
structure Transmitted (w : List (Byte × Byte)) (m : Machine σ) : Prop where
  trap : m.ramsfrtrap SBUF = true
  sent : m.uartOut = sentBytes w

/-- What has been sent stays as long as the traps and the output are the same. -/
lemma Transmitted.mono {w : List (Byte × Byte)} (h : Transmitted w m)
    (htrap : m'.ramsfrtrap = m.ramsfrtrap) (hsent : m'.uartOut = m.uartOut) : Transmitted w m' :=
  ⟨(congrFun htrap SBUF).trans h.trap, hsent.trans h.sent⟩

end Machine

end Emu51
