import DataBinding.Session.Run
import DataBinding.Session.Snapshot

/-!
# Transcripts

A transcript says of each command of a script what the reply was, what was written into the log meanwhile, and what
looked different afterwards.
-/

namespace DataBinding

/-- What is said of one command. -/
structure Report where
  reply : Reply
  log : List LogEntry
  changes : List (Handle × Option Appearance)

/-- A session with the last snapshot of it, and with all the property names seen on objects with a name so far. -/
structure Watched where
  session : Session
  asked : List String
  last : Snapshot

namespace Watched

/-- Adds the names that are not there yet. -/
def addNames (asked names : List String) : List String :=
  names.foldl (fun asked n => if asked.contains n then asked else asked ++ [n]) asked

/-- A session as the host sees it first. -/
def start (s : Session) (names : List String) : Watched :=
  let asked := addNames (addNames [] names) s.propertyNames
  { session := s, asked, last := s.snapshot asked }

/-- Carries out a command and reports on it. -/
def run (w : Watched) (c : Command) : Watched × Report :=
  let (s, reply) := { w.session with log := [] }.run c
  let asked := addNames w.asked s.propertyNames
  let now := s.snapshot asked
  ({ session := s, asked, last := now }, { reply, log := s.log, changes := Snapshot.changes w.last now })

def runAll (w : Watched) : List Command → List Report
  | [] => []
  | c :: cs =>
    let (w', r) := w.run c
    r :: runAll w' cs

end Watched

/-- The transcript of a script, after commands on which nothing is reported. -/
def transcript (setup : List Command) (names : List String) (script : List Command) : List Report :=
  (Watched.start (Session.initial.runAll setup) names).runAll script

end DataBinding
