import DataBinding.Session.Execute

/-!
# Running a session

`Session.step` does the next task of the work under way, and `Session.settle` does tasks until none is left. A command
of the host is run by carrying it out and doing all the work that it leads to.
-/

namespace DataBinding

namespace Session

/-- Puts tasks on top of the work under way. -/
def push (s : Session) (tasks : List Task) : Session := { s with pending := tasks ++ s.pending }

/-- Does a task that was taken from the top. -/
def doTask (s : Session) : Task → Session
  | .notify _ _ _ [] | .deliver _ _ [] | .perform _ [] => s
  | .notify x new previous (l :: rest) =>
    let s := s.push [.notify x new previous rest]
    if s.isPresent l then
      let r := s.tell new previous l
      r.session.push r.tasks
    else s
  | .deliver i e (k :: rest) =>
    let r := (s.push [.deliver i e rest]).receive e k
    r.session.push r.tasks
  | .perform label (c :: rest) =>
    let a := (s.push [.perform label rest]).execute c
    a.session.push (a.tasks ++ [.report label a.reply])
  | .report label reply => s.note (.action label reply)
  | .keep r => s.letGo r
  | .adopt name k => s.setName name k.ref

/-- Does the next task, if there is one. -/
def step (s : Session) : Session :=
  match s.pending with
  | [] => s
  | t :: rest => { s with pending := rest }.doTask t

/-- Does at most `n` tasks. -/
def settle : Nat → Session → Session
  | 0, s => s
  | n + 1, s => if s.pending.isEmpty then s else settle n s.step

/-- How many tasks a command of the host may come to. Bindings that keep changing what they observe would come to no
end. -/
def taskLimit : Nat := UInt32.size

/-- Carries out a command and all that it leads to. -/
def run (s : Session) (c : Command) : Session × Reply :=
  let a := s.execute c
  (settle taskLimit (a.session.push a.tasks), a.reply)

/-- Carries out commands one after another. -/
def runAll (s : Session) (cs : List Command) : Session := cs.foldl (fun s c => (s.run c).1) s

/-- A session with nothing but a system of the default configuration. -/
def initial : Session :=
  let (s, n) := ({} : Session).fresh
  { s with systems := s.systems.insert ⟨n⟩ (System.ofConfig {}) }.setName "main" ⟨.system, n⟩

end Session

end DataBinding
