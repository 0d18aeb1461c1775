import TelemetryEngine.Lib.Program

/-!
# The capture loop

`capture::captureLoop`: wait for the socket with `epoll_wait`, then drain it in batches of
`BATCH_DRAIN` datagrams, each of which goes to `PacketBuffer::write`. The two nested `while` loops
are one loop over `CapturePoint`, with the `for` loop in its body; `none` is the end of the thread.
-/

namespace TelemetryEngine

open Lib

/-! ## Calls -/

/-- What `epoll_wait` reports: `EINTR`, another error, no event in time, or an event. -/
inductive EpollResult
  | interrupted
  | error
  | timeout
  | ready
  deriving DecidableEq

/-- What `recvfrom` reports: `EAGAIN` or `EWOULDBLOCK`, another error, or a datagram. -/
inductive RecvResult
  | wouldBlock
  | error
  | datagram (frame : List UInt8)

/-- The calls of the capture thread; `warnDropped` is the `log_warn` for a frame that `write` did
not take. -/
inductive CaptureCall
  | epollCreate
  | epollCtl
  | close
  | loadStop
  | epollWait
  | recvfrom
  | write (frame : List UInt8)
  | warnDropped (size : ℕ)

/-- The responses; a `Bool` says that the call succeeded, or is `stop_flag`. -/
abbrev CaptureCall.Resp : CaptureCall → Type
  | .epollCreate => Bool
  | .epollCtl => Bool
  | .close => Unit
  | .loadStop => Bool
  | .epollWait => EpollResult
  | .recvfrom => RecvResult
  | .write _ => Bool
  | .warnDropped _ => Unit

abbrev captureSignature : Signature := ⟨CaptureCall, CaptureCall.Resp⟩

abbrev CaptureM := Program captureSignature

/-! ## The thread -/

/-- The heads of the two `while` loops. -/
inductive CapturePoint
  | poll
  | drain (keepDraining : Bool)

namespace CaptureLoop

/-- Make a call of the capture thread. -/
def invoke (c : CaptureCall) : CaptureM c.Resp := Program.invoke (S := captureSignature) c

/-- `BATCH_DRAIN`. -/
def batchDrain : ℕ := 64

/-- `FRAME_BUF_SIZE`. -/
def frameBufSize : ℕ := 2040

/-- The label `cleanup`. -/
def cleanup : CaptureM (Option CapturePoint) := do
  invoke .close
  return none

/-- The `for` loop with `remaining` iterations to go, so that `i` is `batchDrain - remaining`. -/
def drainBatch (keepDraining : Bool) : ℕ → CaptureM (Option CapturePoint)
  | 0 => return some (.drain keepDraining)
  | remaining + 1 => do
    match ← invoke .recvfrom with
    | .wouldBlock => return some (.drain keepDraining)
    | .error => return some (.drain keepDraining)
    | .datagram frame =>
      if frame.length = 0 then return some (.drain keepDraining)
      else if !(← invoke (.write frame)) then
        if ← invoke .loadStop then cleanup
        else
          invoke (.warnDropped frame.length)
          drainBatch keepDraining remaining
      else drainBatch (keepDraining || remaining == 0) remaining

/-- From the head of a `while` loop to the next one. -/
def captureLoop : CapturePoint → CaptureM (Option CapturePoint)
  | .poll => do
    if ← invoke .loadStop then cleanup
    else
      match ← invoke .epollWait with
      | .interrupted => return some .poll
      | .error => cleanup
      | .timeout => return some .poll
      | .ready => return some (.drain true)
  | .drain keepDraining => do
    if !keepDraining then return some .poll
    else if ← invoke .loadStop then return some .poll
    else drainBatch false batchDrain

/-- `captureLoop` up to its first `while`. -/
def captureStart : CaptureM (Option CapturePoint) := do
  if !(← invoke .epollCreate) then return none
  else if !(← invoke .epollCtl) then cleanup
  else return some .poll

end CaptureLoop

end TelemetryEngine
