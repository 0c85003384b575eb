import QuMesh.Lib.Bytes
import QuMesh.Lib.Run

/-!
# `SshTunnelPump`

The thread that carries bytes between the application's end of a tunnel, a
socket, and the channel of the session. `run` is a loop that makes one call
out after the other, so here it is what it waits on and how it goes on with
the answer. Another thread may set `m_stop` while it waits. What was read off
each end and written to it is kept with the state.
-/

namespace QuMesh.Ssh

open QuMesh.Lib

/-- `kBufSize` -/
def bufSize : Nat := 32 * 1024

/-- `SSH_EOF` -/
def sshEof : Int := -127

/-- The call the loop is in. -/
inductive Wait where
  | fdReadable
  | fdRead
  | channelWrite (sent : Nat)
  | channelPoll
  | channelRead
  | fdWrite (totalOut : Nat)
  | channelIsEof
  | usleep
  | channelFree
  | finished
  deriving DecidableEq, Repr

/-- What a call returns. A read that fails is `none`, and one that finds the
end of the stream has no bytes. -/
inductive Answer where
  | readable (yes : Bool)
  | fdRead (got : Option Bytes)
  | channelWrote (rc : Int)
  | polled (rc : Int)
  | channelRead (got : Option Bytes)
  | fdWrote (wrote : Int)
  | eof (yes : Bool)
  | woken
  | freed
  | stop
  deriving DecidableEq, Repr

structure SshTunnelPump where
  wait : Wait := .fdReadable
  /-- The bytes of the buffer that were read into it. -/
  buf : Bytes := []
  didWork : Bool := false
  stop : Bool := false
  error : String := ""
  fromApp : Bytes := []
  toChannel : Bytes := []
  fromChannel : Bytes := []
  toApp : Bytes := []
  deriving DecidableEq, Repr

namespace SshTunnelPump

/-- Where the loop is left: the channel is closed and freed. -/
def leave (p : SshTunnelPump) : SshTunnelPump := { p with wait := .channelFree }

def fail (error : String) (p : SshTunnelPump) : SshTunnelPump :=
  { p with error }.leave

def loopHead (p : SshTunnelPump) : SshTunnelPump :=
  if p.stop then p.leave
  else { p with wait := .fdReadable, didWork := false }

def onFdRead (got : Option Bytes) (p : SshTunnelPump) : SshTunnelPump :=
  match got with
  | none => { p with wait := .channelPoll }
  | some [] => p.leave
  | some bytes =>
      { p with wait := .channelWrite 0, buf := bytes,
               fromApp := p.fromApp ++ bytes }

/-- The first write and the ones that follow a short one. -/
def onChannelWrote (sent : Nat) (rc : Int) (p : SshTunnelPump) :
    SshTunnelPump :=
  if rc < 0 then p.fail "ssh_channel_write failed"
  else
    let p :=
      { p with didWork := true,
               toChannel := p.toChannel ++ (p.buf.drop sent).take rc.toNat }
    let sent := sent + rc.toNat
    if sent < p.buf.length ∧ p.stop = false then
      { p with wait := .channelWrite sent }
    else { p with wait := .channelPoll }

def onPolled (rc : Int) (p : SshTunnelPump) : SshTunnelPump :=
  if rc = sshEof then p.leave
  else if rc < 0 then p.fail s!"ssh_channel_poll failed (rc={rc})"
  else if rc > 0 then { p with wait := .channelRead }
  else { p with wait := .channelIsEof }

/-- The test of `while (totalOut < got && !m_stop)`. -/
def writeOut (totalOut : Nat) (p : SshTunnelPump) : SshTunnelPump :=
  if totalOut < p.buf.length ∧ p.stop = false then
    { p with wait := .fdWrite totalOut }
  else { p with wait := .channelIsEof, didWork := true }

def onChannelRead (got : Option Bytes) (p : SshTunnelPump) : SshTunnelPump :=
  match got with
  | none => p.fail "ssh_channel_read failed"
  | some [] => { p with wait := .channelIsEof }
  | some bytes =>
      { p with buf := bytes, fromChannel := p.fromChannel ++ bytes }.writeOut 0

def onFdWrote (totalOut : Nat) (wrote : Int) (p : SshTunnelPump) :
    SshTunnelPump :=
  -- taken for a consumer that has closed its end
  if wrote ≤ 0 then { p with stop := true }.writeOut totalOut
  else
    { p with toApp := p.toApp ++ (p.buf.drop totalOut).take wrote.toNat }.writeOut
      (totalOut + wrote.toNat)

/-- `run` goes on with what it waits for, and with nothing else. -/
def answer (p : SshTunnelPump) (a : Answer) : SshTunnelPump :=
  match p.wait, a with
  | _, .stop => { p with stop := true }
  | .fdReadable, .readable true => { p with wait := .fdRead }
  | .fdReadable, .readable false => { p with wait := .channelPoll }
  | .fdRead, .fdRead got => p.onFdRead got
  | .channelWrite sent, .channelWrote rc => p.onChannelWrote sent rc
  | .channelPoll, .polled rc => p.onPolled rc
  | .channelRead, .channelRead got => p.onChannelRead got
  | .fdWrite totalOut, .fdWrote wrote => p.onFdWrote totalOut wrote
  | .channelIsEof, .eof true => p.leave
  | .channelIsEof, .eof false =>
      if p.didWork then p.loopHead else { p with wait := .usleep }
  | .usleep, .woken => p.loopHead
  | .channelFree, .freed => { p with wait := .finished }
  | _, _ => p

end SshTunnelPump

end QuMesh.Ssh
