import Slopmud.Broker.LineId

/-!
# The scrollback of a session

The last lines of output, in memory. A report names one of them and takes the lines around it.
-/

namespace Slopmud.Broker

structure ScrollLine where
  lineId : LineId
  tsUnixMs : Nat
  text : Text
deriving DecidableEq, Repr

/-- At most `cap` lines, the oldest first. -/
structure Scrollback where
  cap : Nat
  lines : List ScrollLine
  bounded : lines.length ≤ cap

namespace Scrollback

def new (cap : Nat) : Scrollback := ⟨max cap 1, [], Nat.zero_le _⟩

def pushLine (sb : Scrollback) (lineId : LineId) (tsUnixMs : Nat) (text : Text) : Scrollback where
  cap := sb.cap
  lines :=
    let lines := sb.lines ++ [⟨lineId, tsUnixMs, text⟩]
    lines.drop (lines.length - sb.cap)
  bounded := by
    rw [List.length_drop]
    omega

/-- The lines from `start` to `stop`, when the first has number `i`. -/
def window (start stop : Nat) : Nat → List ScrollLine → List ScrollLine
  | _, [] => []
  | i, l :: ls =>
    if i < start then window start stop (i + 1) ls
    else if stop < i then []
    else l :: window start stop (i + 1) ls

/-- The line with the id, and up to `ctx` lines before and after it. -/
def findWithContext (sb : Scrollback) (lineId : LineId) (ctx : Nat) :
    Option (ScrollLine × List ScrollLine) := do
  let idx ← sb.lines.findIdx? fun l => l.lineId = lineId
  let start := idx - ctx
  let stop := min (idx + ctx) (sb.lines.length - 1)
  let context := window start stop 0 sb.lines
  let target ← (context.find? fun l => l.lineId = lineId).or sb.lines[idx]?
  pure (target, context)

end Scrollback

end Slopmud.Broker
