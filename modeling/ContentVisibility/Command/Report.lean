/-!
# Reports of commands

* `Complaint`: why a command failed, with the causes behind it;
* `Complaint.text`: the report of a failure;
* `Report`: what a command leaves behind.
-/

namespace ContentVisibility.Command

/-- Why a command failed. -/
structure Complaint where
  message : String
  /-- What is behind it, nearest cause first. -/
  causes : List String
  /-- Whether all is said; what is wrong inside a document of settings is not told. -/
  complete : Bool
  deriving DecidableEq, Repr

namespace Complaint

def because (message : String) (causes : List String) : Complaint := ⟨message, causes, true⟩

def plain (message : String) : Complaint := because message []

def untold (message : String) : Complaint := ⟨message, [], false⟩

/-- The text with `indent` in front of each line but the first one. -/
def hanging (indent text : String) : String := ("\n" ++ indent).intercalate (text.splitOn "\n")

/-- The causes, numbered if there are several of them. -/
def causesText : List String → String
  | [] => ""
  | [cause] => "\n\nCaused by:\n    " ++ hanging "    " cause
  | causes =>
    "\n\nCaused by:" ++ String.join (causes.zipIdx.map fun (cause, n) =>
      "\n" ++ String.ofList (List.replicate (5 - (toString n).length) ' ') ++ s!"{n}: " ++
        hanging "       " cause)

def body (c : Complaint) : String := c.message ++ causesText c.causes

/-- The report of a failure, which ends its line if all is said. -/
def text (c : Complaint) : String := if c.complete then c.body ++ "\n" else c.body

end Complaint

/-- What a command leaves behind. -/
structure Report where
  output : String
  complaint : Option Complaint
  deriving DecidableEq, Repr

def Report.status (report : Report) : Nat := if report.complaint.isSome then 1 else 0

end ContentVisibility.Command
