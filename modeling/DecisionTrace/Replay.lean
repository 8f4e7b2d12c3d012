import DecisionTrace.Search

/-!
# Replaying a trace

A trace is checked against a formula and a verdict without searching. The replay keeps one level
for each open depth: the assignment of the frame there, and the variable of an attempt that still
owes its second branch. A branch at one depth opens the next as a copy of its frame with the branch
binding; an event at a shallower depth closes all deeper levels, which is allowed only when no
attempt there is still open.

A trace may come from anywhere, so every event is checked on its own: a propagated literal must be
forced by some clause, a conflict must name a clause with only false literals, a branch must come
after propagation has finished. The verdict is then compared with where the replay stands.
-/

namespace DecisionTrace

/-- The state of the replay at one depth. -/
structure Level where
  frame : Assignment
  /-- The variable of an attempt whose second branch has not come yet. -/
  openTry : Option String := none
deriving DecidableEq

/-- Where a replay stands. -/
inductive Replay where
  /-- The open levels, the shallowest first. -/
  | running (levels : List Level)
  /-- Success was reported in this frame. -/
  | succeeded (frame : Assignment)
deriving DecidableEq

/-- Why a trace is not accepted. -/
inductive Rejection where
  | afterSuccess (position : Nat) (entry : Entry)
  | noFrame (depth : Int) (position : Nat)
  | leftOpen (depth : Nat) (name : String)
  | alreadyAssigned (name : String)
  | notForced (name : String) (value : Bool)
  | unknownClause (clause : Int)
  | notFalsified (clause : Int) (position : Nat)
  | notSatisfied (position : Nat)
  | branchOnAssigned (name : String)
  | attemptOfFalse (name : String)
  | secondAttempt (depth : Nat) (name : String)
  | propagationPending (name : String)
  | unmatchedBacktrack (name : String)
  | unknownKind (kind : String)
  | successInRefutation
  | noFinalConflict
  | unexplored (names : List String)
  | noSuccess
  | snapshotDiffers
  | assignmentFails
deriving DecidableEq, Repr

/-- The rejection in words. An entry after success is shown by its line, so one without a line has
no words there. -/
def Rejection.message : Rejection → Except RenderError String
  | .afterSuccess position entry =>
    match entry.render with
    | .ok line => .ok ("event after success at " ++ Text.natural position ++ ": " ++ line)
    | .error e => .error e
  | .noFrame depth position =>
    .ok ("no open frame at depth " ++ Text.integer depth ++ " for event " ++ Text.natural position)
  | .leftOpen depth name =>
    .ok ("left depth " ++ Text.natural depth ++ " before backtracking on " ++ name)
  | .alreadyAssigned name => .ok ("propagated variable " ++ name ++ " already assigned")
  | .notForced name value =>
    .ok ("no unit clause forces " ++ name ++ " = " ++ Text.capitalBool value)
  | .unknownClause clause => .ok ("conflict names unknown clause " ++ Text.integer clause)
  | .notFalsified clause position =>
    .ok ("clause " ++ Text.integer clause ++ " is not falsified at event " ++
      Text.natural position)
  | .notSatisfied position => .ok ("formula not satisfied at event " ++ Text.natural position)
  | .branchOnAssigned name => .ok ("branch on assigned variable " ++ name)
  | .attemptOfFalse name => .ok ("first branch on " ++ name ++ " must try true")
  | .secondAttempt depth name =>
    .ok ("second try at depth " ++ Text.natural depth ++ " while " ++ name ++ " is still open")
  | .propagationPending name => .ok ("branch on " ++ name ++ " before propagation finished")
  | .unmatchedBacktrack name => .ok ("backtrack on " ++ name ++ " without a matching try")
  | .unknownKind kind => .ok ("unknown event type " ++ kind)
  | .successInRefutation => .ok "UNSAT result but trace reports success"
  | .noFinalConflict => .ok "UNSAT trace does not end in a conflict"
  | .unexplored names =>
    .ok ("UNSAT result with unexplored false branches: " ++ Text.quotedList names)
  | .noSuccess => .ok "SAT result but trace never reports success"
  | .snapshotDiffers => .ok "replayed assignment differs from the solver's"
  | .assignmentFails => .ok "returned assignment does not satisfy the formula"

/-- The numbers of a trace that the words of a rejection show, outside the line of an entry. -/
def Rejection.numbers : Rejection → List Int
  | .noFrame depth _ => [depth]
  | .unknownClause clause => [clause]
  | .notFalsified clause _ => [clause]
  | _ => []

/-- Why a rejection cannot be told. -/
inductive ReportError where
  /-- The entry that it shows has no line. -/
  | noLine (e : RenderError)
  /-- A number that it shows has too many digits to be written. -/
  | tooManyDigits
deriving DecidableEq, Repr

/-- The message of a rejection that cannot be told. -/
def ReportError.message : ReportError → String
  | .noLine e => e.message
  | .tooManyDigits => Text.unwritableMessage

namespace Formula

/-- Whether some clause has no true literal and `l` as its one undecided occurrence. Only a clause
that holds `l` is looked into. -/
def forces (f : Formula) (a : Assignment) (l : Literal) : Bool :=
  f.clauses.any fun c => c.literals.contains l && c.status a = .unit l

/-- Whether some clause has no true literal and at most one undecided occurrence. -/
def hasPending (f : Formula) (a : Assignment) : Bool :=
  f.clauses.any fun c => !c.satisfiedBy a && (c.unassigned a).length ≤ 1

end Formula

namespace Replay

/-- The start: one level, which binds nothing. -/
def start : Replay :=
  .running [{ frame := ∅ }]

/-- The first open attempt of a list of levels, with its depth; the first level has depth `d`. -/
def firstOpen? (d : Nat) : List Level → Option (Nat × String)
  | [] => none
  | level :: levels =>
    match level.openTry with
    | some name => some (d, name)
    | none => firstOpen? (d + 1) levels

/-- The effect of a branch: the level records whether its second branch is still to come, and the
next level starts with the branch binding. -/
def opening (below : List Level) (level : Level) (openTry : Option String) (name : String)
    (value : Bool) : Replay :=
  .running (below ++ [{ level with openTry }, { frame := level.frame.set name value }])

/-- One action in the deepest level. -/
def act (f : Formula) (position : Nat) (below : List Level) (level : Level) :
    Action → Except Rejection Replay
  | .propagate name value =>
    if level.frame.binds name then .error (.alreadyAssigned name)
    else if !f.forces level.frame ⟨name, !value⟩ then .error (.notForced name value)
    else .ok (.running (below ++ [{ level with frame := level.frame.extend name value }]))
  | .conflict clause =>
    match if 0 ≤ clause then f.clauses[clause.toNat]? else none with
    | none => .error (.unknownClause clause)
    | some c =>
      if c.status level.frame = .falsified then .ok (.running (below ++ [level]))
      else .error (.notFalsified clause position)
  | .allSatisfied =>
    if f.satisfiedBy level.frame then .ok (.succeeded level.frame)
    else .error (.notSatisfied position)
  | .branch .attempt name value =>
    if level.frame.binds name then .error (.branchOnAssigned name)
    else if !value then .error (.attemptOfFalse name)
    else
      match level.openTry with
      | some other => .error (.secondAttempt below.length other)
      | none =>
        if f.hasPending level.frame then .error (.propagationPending name)
        else .ok (opening below level (some name) name value)
  | .branch .backtrack name value =>
    if level.openTry ≠ some name ∨ value = true then .error (.unmatchedBacktrack name)
    else .ok (opening below level none name value)

/-- One entry of a trace at a position. -/
def step (f : Formula) (position : Nat) (entry : Entry) : Replay → Except Rejection Replay
  | .succeeded _ => .error (.afterSuccess position entry)
  | .running levels =>
    let d := entry.depth.toNat
    -- a negative depth names no level
    match if 0 ≤ entry.depth then levels[d]? else none with
    | none => .error (.noFrame entry.depth position)
    | some level =>
      match firstOpen? (d + 1) (levels.drop (d + 1)) with
      | some (depth, name) => .error (.leftOpen depth name)
      | none =>
        match entry with
        | .foreign kind _ => .error (.unknownKind kind)
        | .event e => act f position (levels.take d) level e.action

/-- All entries of a trace whose first has the given position. -/
def run (f : Formula) : (position : Nat) → List Entry → Replay → Except Rejection Replay
  | _, [], r => .ok r
  | position, entry :: entries, r =>
    match step f position entry r with
    | .error e => .error e
    | .ok next => run f (position + 1) entries next

/-- Whether an entry is a conflict. -/
def isConflict : Entry → Bool
  | .event ⟨.conflict _, _⟩ => true
  | _ => false

/-- A name put in its place among sorted names. -/
def insertSorted (name : String) : List String → List String
  | [] => [name]
  | n :: ns => if name ≤ n then name :: n :: ns else n :: insertSorted name ns

/-- The variables of the attempts that are still open, in order. -/
def openNames (levels : List Level) : List String :=
  (levels.filterMap Level.openTry).foldr insertSorted []

/-- What speaks against a verdict once the whole trace has been replayed. -/
def objection? (f : Formula) (entries : List Entry) : Verdict → Replay → Option Rejection
  | .unsatisfiable, .succeeded _ => some .successInRefutation
  | .unsatisfiable, .running levels =>
    if !entries.getLast?.any isConflict then some .noFinalConflict
    else
      match openNames levels with
      | [] => none
      | names => some (.unexplored names)
  | .satisfiable _ _, .running _ => some .noSuccess
  | .satisfiable assignment snapshot, .succeeded frame =>
    if !frame.sameMapping snapshot then some .snapshotDiffers
    else if !f.satisfiedBy assignment then some .assignmentFails
    else none

/-- The check of a verdict and its trace: none when they are accepted, and otherwise the first
reason against them. -/
def check (f : Formula) (verdict : Verdict) (entries : List Entry) : Option Rejection :=
  match run f 0 entries start with
  | .error e => some e
  | .ok final => objection? f entries verdict final

/-- The check of what a search returned. -/
def checkOutcome (f : Formula) (o : Outcome) : Option Rejection :=
  check f o.verdict (o.trace.map .event)

/-- What the check of a verdict and its trace comes to: nothing when they are accepted, and
otherwise the reason in words. -/
def report (f : Formula) (verdict : Verdict) (entries : List Entry) :
    Except ReportError (Option String) :=
  match check f verdict entries with
  | none => .ok none
  | some r =>
    match r.message with
    | .error e => .error (.noLine e)
    | .ok text =>
      if r.numbers.any Text.exceedsDigits then .error .tooManyDigits else .ok (some text)

/-- What a replay says: nothing when the trace is accepted. -/
def log (failure : Option String) : List LogRecord :=
  match failure with
  | some text => [⟨.replay, .warning, "Trace verification failed: " ++ text⟩]
  | none => []

end Replay

end DecisionTrace
