import InOrder.Payload.Basic

/-!
# Redirects

A redirect tells the line fetch of a thread to go on elsewhere, and why. Execute sends those that
change the stream of a thread, the slicer sends predictions within a stream. A corrupted reason
code that names no reason still redirects.
-/

namespace InOrder

/-- Why fetch is redirected. -/
inductive Reason where
  /-- No redirect. -/
  | noBranch
  /-- A predicted jump went where it was predicted to go. -/
  | correctlyPredicted
  /-- A jump was not predicted. -/
  | unpredicted
  /-- The slicer predicts a jump. -/
  | prediction
  /-- A jump was predicted to another target. -/
  | badTarget
  /-- A jump was predicted where there is none. -/
  | badPrediction
  /-- The thread stops until it is woken. -/
  | suspend
  /-- An interrupt handler is entered. -/
  | interrupt
  /-- Fetch stops for a drain. -/
  | halt
  /-- A code that names no reason. -/
  | unknown (code : UInt8)
deriving DecidableEq

namespace Reason

/-- The code in the latch. -/
def code : Reason → UInt8
  | noBranch => 0
  | correctlyPredicted => 1
  | unpredicted => 2
  | prediction => 3
  | badTarget => 4
  | badPrediction => 5
  | suspend => 6
  | interrupt => 7
  | halt => 8
  | unknown c => c

/-- The reason of a code. -/
def ofCode (c : UInt8) : Reason :=
  if c = 0 then noBranch
  else if c = 1 then correctlyPredicted
  else if c = 2 then unpredicted
  else if c = 3 then prediction
  else if c = 4 then badTarget
  else if c = 5 then badPrediction
  else if c = 6 then suspend
  else if c = 7 then interrupt
  else if c = 8 then halt
  else unknown c

/-- Younger instructions of the thread have to be discarded. -/
def changesStream : Reason → Bool
  | noBranch | correctlyPredicted => false
  | _ => true

/-- The name in traces. -/
def display : Reason → String
  | noBranch => "NoBranch"
  | correctlyPredicted => "CorrectlyPredictedBranch"
  | unpredicted => "UnpredictedBranch"
  | prediction => "BranchPrediction"
  | badTarget => "BadlyPredictedBranchTarget"
  | badPrediction => "BadlyPredictedBranch"
  | suspend => "SuspendThread"
  | interrupt => "Interrupt"
  | halt => "HaltFetch"
  | unknown c => s!"Unknown({c})"

theorem code_ofCode (c : UInt8) : (ofCode c).code = c := by
  unfold ofCode
  repeat' split
  all_goals simp_all [code]

end Reason

/-- A redirect of one thread. -/
structure Redirect where
  bubble : Flag
  reason : Reason
  thread : UInt32
  /-- Where fetch goes on. -/
  target : UInt64
  /-- The stream that fetch continues in. -/
  newStreamSeq : UInt64
  /-- The prediction number that fetch continues with. -/
  newPredictionSeq : UInt64
deriving DecidableEq

namespace Redirect

/-- The empty slot. -/
def empty : Redirect := ⟨.set, .noBranch, 0, 0, 0, 0⟩

/-- A redirect that is no bubble. -/
def live (reason : Reason) (thread : UInt32) (target streamSeq predictionSeq : UInt64) : Redirect :=
  ⟨.clear, reason, thread, target, streamSeq, predictionSeq⟩

/-- The redirect is no bubble and has a reason. -/
def isLive (r : Redirect) : Bool := !r.bubble.isSet && r.reason != .noBranch

/-- The bit image of 30 bytes. -/
def encode (r : Redirect) : List UInt8 :=
  r.bubble.raw :: r.reason.code :: (Bytes.ofUInt32 r.thread ++ Bytes.ofUInt64 r.target ++
    Bytes.ofUInt64 r.newStreamSeq ++ Bytes.ofUInt64 r.newPredictionSeq)

/-- The redirect of any byte string. -/
def decode (bs : List UInt8) : Redirect :=
  { bubble := ⟨Bytes.u8At bs 0⟩
    reason := .ofCode (Bytes.u8At bs 1)
    thread := Bytes.u32At bs 2
    target := Bytes.u64At bs 6
    newStreamSeq := Bytes.u64At bs 14
    newPredictionSeq := Bytes.u64At bs 22 }

/-- Reason, numbers and target, or a dash if there is no reason. -/
def display (r : Redirect) : String :=
  if r.isLive then
    s!"{r.reason.display}({r.newStreamSeq}.{r.newPredictionSeq})->{Hex.marked r.target.toNat}"
  else "-"

end Redirect

instance : Payload Redirect where
  isBubble r := r.bubble.isSet
  countsAsBubble r := !r.isLive
  encode := Redirect.encode
  decode := Redirect.decode
  display := Redirect.display

end InOrder
