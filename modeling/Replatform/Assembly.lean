import Replatform.Log.Journal
import Replatform.Plan

/-! # Assembling a plan

Candidates are offered to the services of a plan one after the other.  Every entry under
the name of a candidate that is the same service takes it in; a candidate that no entry
takes in becomes an entry of its own.
-/
namespace Replatform

namespace Services

/-- The entries under a name. -/
def under (ss : Services) (name : String) : List Service := (ss.get? name).getD []

/-- The entries after a candidate has been offered to them. -/
def offerTo (entries : List Service) (c : Service) : List Service :=
  if entries.any (·.isSame c) then entries.map fun e => (e.merge? c).getD e else entries ++ [c]

/-- The services after a candidate has been offered. -/
def offer (ss : Services) (c : Service) : Services :=
  ss.alter c.name fun old => offerTo (old.getD []) c

/-- The services after all candidates of a batch have been offered. -/
def add (ss : Services) (batch : List Service) : Services := batch.foldl offer ss

/-- How many entries take a candidate in. -/
def matchCount (ss : Services) (c : Service) : Nat := (ss.under c.name).countP (·.isSame c)

end Services

/-- How many candidates were taken in by entries and how many became entries. -/
structure AssemblyReport where
  merged : Nat
  appended : Nat
  deriving DecidableEq, Repr

namespace Services

/-- What becomes of the candidates of a batch. -/
def tally (ss : Services) : List Service → AssemblyReport
  | [] => ⟨0, 0⟩
  | c :: rest =>
    let r := tally (ss.offer c) rest
    if ss.matchCount c = 0 then { r with appended := r.appended + 1 }
    else { r with merged := r.merged + 1 }

/-- Reports the names that a batch brings in and the candidates that several entries take
in. -/
def announce {ε : Type} (ss : Services) : List Service → Log.Activity ε Unit
  | [] => return ()
  | c :: rest => do
    if !ss.contains c.name then
      Log.report .debug "Added new service to plan" [("service_name", .text c.name)]
    if 1 < ss.matchCount c then
      Log.report .warning "Candidate merged into several entries"
        [("service_name", .text c.name), ("matches", .int (ss.matchCount c))]
    announce (ss.offer c) rest

end Services

namespace Plan

/-- The plan after the candidates of a batch have been offered. -/
def add (p : Plan) (batch : List Service) : Plan := { p with services := p.services.add batch }

/-- The plan after a batch, with the report on it. -/
def submit {ε : Type} (p : Plan) (batch : List Service) : Log.Activity ε (Plan × AssemblyReport) := do
  p.services.announce batch
  return (p.add batch, p.services.tally batch)

end Plan

/-- What a client of a planning session does, as one step. -/
inductive Action where
  | submit (batch : List Service)
  | applyOutput (layer : KubernetesOutput)
  | snapshot

namespace Plan

/-- The plan after an action. -/
def after (p : Plan) : Action → Plan
  | .submit batch => p.add batch
  | .applyOutput layer => p.applyLayers [layer]
  | .snapshot => p

/-- The plan after the actions of a session, in the order in which they took effect. -/
def run (p : Plan) (session : List Action) : Plan := session.foldl after p

end Plan
end Replatform
