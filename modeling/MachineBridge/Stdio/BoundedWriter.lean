import MachineBridge.Foundation.Run
import Mathlib.Algebra.BigOperators.Group.List.Basic
import Mathlib.Algebra.GroupWithZero.Nat

/-!
# The writer of the standard output

Lines are written one after the other, each when the output has taken the one
before.  What waits is bounded: a response which does not fit is replaced by a
rejection, for which some room is reserved, and where that does not fit either
the transport is given up.  The input is paused while much is waiting.
-/

namespace MachineBridge.Stdio

open Foundation

/-- The limits which the constructor accepts. -/
structure WriterLimits where
  (maxQueuedBytes reserveBytes : Nat)
  positive : 1 ≤ maxQueuedBytes

structure OverloadDetails where
  (queuedBytes responseBytes maxQueuedBytes : Nat)

/-- The texts of messages, and the rejection of a request.  `id` is missing for
what is not an object, and where it is null. -/
structure WriterCodec (Message Id : Type) where
  stringify : Message → List UInt8
  id : Message → Option Id
  rpcError : Id → OverloadDetails → Message

/-- What is queued: a message which was sent, or the rejection of one. -/
inductive WriterEntry (Message Id : Type) where
  | message (message : Message)
  | rejection (id : Id) (details : OverloadDetails)

/-- The write of one line.  `settled` tells that its promise is resolved. -/
structure LineWrite where
  callbackDone : Bool := false
  drainDone : Bool := true
  (drainSeen settled : Bool := false)

/-- `queue` holds what is not completed; the first of it is being written when
there is a `write`.  `output` is what the stream was given. -/
structure Writer (Message Id : Type) where
  queuedBytes : Nat := 0
  (overloaded paused destroyed : Bool := false)
  queue : List (WriterEntry Message Id) := []
  write : Option LineWrite := none
  output : List (List UInt8) := []
  completed : List (WriterEntry Message Id) := []

/-- While a line is given to the stream, a drain may be seen and the callback
may be called, in this order. -/
inductive WriterEvent (Message : Type) where
  | send (message : Option Message)
  | write (accepted drained called : Bool)
  | drain
  | callback
  /-- The promise of the first line has come to its `finally`. -/
  | complete

variable {Message Id : Type}

section Lines

variable (codec : WriterCodec Message Id)

def messageLine (message : Message) : List UInt8 :=
  codec.stringify message ++ [10]

def WriterEntry.line : WriterEntry Message Id → List UInt8
  | .message sent => messageLine codec sent
  | .rejection id details => messageLine codec (codec.rpcError id details)

def WriterEntry.bytes (entry : WriterEntry Message Id) : Nat :=
  (entry.line codec).length

def rejectionFor (message : Message) (details : OverloadDetails) :
    Option (WriterEntry Message Id) :=
  (codec.id message).map fun id => .rejection id details

end Lines

namespace LineWrite

section

variable (write : LineWrite)

def maybeFinish : LineWrite :=
  if write.callbackDone && write.drainDone then { write with settled := true }
  else write

def onDrain : LineWrite :=
  { write with
    drainSeen := true
    drainDone := true }.maybeFinish

def onCallback : LineWrite :=
  { write with callbackDone := true }.maybeFinish

end

/-- The call of `write`, with what happens before it returns. -/
def start (accepted drained called : Bool) : LineWrite :=
  let write : LineWrite := {}
  let write := if drained then write.onDrain else write
  let write := if called then write.onCallback else write
  { write with
    drainDone := if accepted then true else write.drainSeen }.maybeFinish

end LineWrite

namespace Writer

variable (limits : WriterLimits) (codec : WriterCodec Message Id)
  (writer : Writer Message Id)

def enqueue (entry : WriterEntry Message Id) : Writer Message Id :=
  let queuedBytes := writer.queuedBytes + entry.bytes codec
  { writer with
    queuedBytes
    queue := writer.queue ++ [entry]
    paused := writer.paused ||
      decide (3 * limits.maxQueuedBytes ≤ 4 * queuedBytes) }

def giveUp : Writer Message Id :=
  { writer with
    overloaded := true
    paused := true
    destroyed := true }

def send (message : Option Message) : Writer Message Id :=
  match message with
  | none => writer
  | some message =>
    let responseBytes := (messageLine codec message).length
    let details : OverloadDetails :=
      { queuedBytes := writer.queuedBytes
        responseBytes
        maxQueuedBytes := limits.maxQueuedBytes }
    if writer.overloaded then writer
    else if responseBytes ≤ limits.maxQueuedBytes ∧
        writer.queuedBytes + responseBytes ≤ limits.maxQueuedBytes then
      writer.enqueue limits codec (.message message)
    else
      match rejectionFor codec message details with
      | none => writer
      | some rejection =>
        if writer.queuedBytes + rejection.bytes codec ≤
            limits.maxQueuedBytes + limits.reserveBytes then
          writer.enqueue limits codec rejection
        else writer.giveUp

/-- The first line is given to the stream when no other one is written. -/
def startWrite (accepted drained called : Bool) : Writer Message Id :=
  match writer.queue, writer.write with
  | entry :: _, none =>
    { writer with
      write := some (LineWrite.start accepted drained called)
      output := writer.output ++ [entry.line codec] }
  | _, _ => writer

def complete : Writer Message Id :=
  match writer.queue, writer.write with
  | entry :: rest, some write =>
    if write.settled then
      let queuedBytes := writer.queuedBytes - entry.bytes codec
      { writer with
        queuedBytes
        queue := rest
        write := none
        completed := writer.completed ++ [entry]
        paused :=
          if !writer.overloaded &&
              decide (2 * queuedBytes < limits.maxQueuedBytes) then false
          else writer.paused }
    else writer
  | _, _ => writer

def step (writer : Writer Message Id) :
    WriterEvent Message → Writer Message Id
  | .send message => writer.send limits codec message
  | .write accepted drained called =>
    writer.startWrite codec accepted drained called
  | .drain => { writer with write := writer.write.map LineWrite.onDrain }
  | .callback => { writer with write := writer.write.map LineWrite.onCallback }
  | .complete => writer.complete limits codec

/-- All that was ever queued. -/
def accepted : List (WriterEntry Message Id) :=
  writer.completed ++ writer.queue

end Writer

end MachineBridge.Stdio
