import MarkupEdit.Edit.Engine

/-!
# Sessions

Editors with different settings may share one cache. A session is what they are asked to do, one call
after the other.

* `Call.run`: one call.
* `runCalls`: calls in a row.
-/

namespace MarkupEdit.Edit

open MarkupEdit.Tree

/-- A call on an editor. -/
inductive Call where
  | transform (config : Config) (request : Request)
  | batch (config : Config) (request : BatchRequest)
  | findNodes (config : Config) (source file : String)
  | invalidate (file : String)
  | clear

/-- The file that a call is about. -/
def Call.file? : Call → Option String
  | transform _ request => some request.file
  | batch _ request => some request.file
  | findNodes _ _ file => some file
  | invalidate file => some file
  | clear => none

/-- What a call answers. -/
inductive Answer where
  | transformed (outcome : Outcome)
  | batched (outcome : BatchOutcome)
  | listed (elements : Except EditFault (List ElementInfo))
  | invalidated (wasThere : Bool)
  | cleared

/-- One call: the cache afterwards, and the answer. -/
def Call.run (cache : ParseCache) : Call → ParseCache × Answer
  | .transform config request => (Edit.transform config cache request).map id .transformed
  | .batch config request => (Edit.batch config cache request).map id .batched
  | .findNodes config source file => (Edit.findNodes config cache source file).map id .listed
  | .invalidate file => (cache.invalidate file).map id .invalidated
  | .clear => (cache.clear, .cleared)

/-- Calls in a row. -/
def runCalls (cache : ParseCache) : List Call → ParseCache × List Answer
  | [] => (cache, [])
  | call :: rest =>
    let (cache, answer) := call.run cache
    let (cache, answers) := runCalls cache rest
    (cache, answer :: answers)

end MarkupEdit.Edit
