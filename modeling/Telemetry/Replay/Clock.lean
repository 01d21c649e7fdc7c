import Telemetry.Replay.Engine

/-!
Virtual time: an engine takes its turns at the times at which they are due.
-/

namespace Telemetry

namespace Replay

/-- Takes turns as long as one is due by `stop`; `fuel` bounds their number. -/
def playUntil (stop : Nat) : Nat → Engine → Scene → Engine × Scene
  | 0, e, s => (e, s)
  | fuel + 1, e, s =>
    match e.due? with
    | none => (e, s)
    | some time =>
      if stop < time then (e, s)
      else
        let (e, s) := e.turn s
        playUntil stop fuel e s

/-- How many turns an engine can take in a time, if it sleeps at all in each loop. -/
def turnBound (elapsed : Nat) (e : Engine) : Nat := (elapsed + 1) * (2 * e.total + 2)

def awaken (now : Nat) (e : Engine) (s : Scene) : Engine × Scene :=
  if e.phase = .ready then e.start now s else (e, s)

def advance (now elapsed : Nat) (e : Engine) (s : Scene) : Engine × Scene :=
  let (e, s) := awaken now e s
  playUntil (now + elapsed) (turnBound elapsed e) e s

end Replay

end Telemetry
