import Tumult.Ssh.KnownHosts
import Tumult.Lib.ShellWords
import Tumult.Core.Text

/-!
# Commands over an SSH session

A command is sent on a channel of its own, and the messages of the channel are read until it closes. An upload is such a command, with
the file as its input. Channels are a library's; what it sends back is any sequence of messages, within the time or not.
-/

namespace Tumult.Ssh

/-- Messages of a channel. -/
inductive ChannelMsg where
  | data (data : List UInt8)
  | extendedData (data : List UInt8) (ext : Nat)
  | exitStatus (exitStatus : UInt32)
  | exitSignal (signalName : String) (coreDumped : Bool)
  | other
  deriving DecidableEq, Repr

structure CommandResult where
  exitCode : UInt32
  stdout : String
  stderr : String
  deriving DecidableEq, Repr

/-- What the read loop has gathered. -/
structure Gathered where
  stdout : List UInt8
  stderr : List UInt8
  exitCode : Option UInt32
  exitSignal : Option String
  deriving DecidableEq, Repr

/-- One turn of the read loop. -/
def Gathered.read (g : Gathered) : ChannelMsg → Gathered
  | .data data => { g with stdout := g.stdout ++ data }
  | .extendedData data ext => if ext = 1 then { g with stderr := g.stderr ++ data } else g
  | .exitStatus status => { g with exitCode := some status }
  | .exitSignal name coreDumped =>
    { g with exitSignal := some ("killed by signal: " ++ name ++ if coreDumped then " (core dumped)" else "") }
  | .other => g

/-- The messages up to the close of the channel. -/
def gather (msgs : List ChannelMsg) : Gathered := msgs.foldl Gathered.read ⟨[], [], none, none⟩

/-- Errors of a native function: one of a call within it, with its context, or the outcome itself. -/
inductive NativeError where
  | execution (context : String) (source : SshError)
  | failed (message : String)
  deriving DecidableEq, Repr

/-- What the channel does for a command: it may not open, may refuse the command, or delivers messages, in time or not. -/
inductive Channel where
  | notOpened (reason : String)
  | notSent (reason : String)
  | messages (msgs : List ChannelMsg) (inTime : Bool)

section

-- `String::from_utf8_lossy`
variable (lossy : List UInt8 → String)

/-- Explicit status, then signal, then failure. -/
def Gathered.result (g : Gathered) : CommandResult where
  exitCode := g.exitCode.getD (if g.exitSignal.isSome then 137 else 1)
  stdout := Text.trim (lossy g.stdout)
  stderr :=
    match g.exitSignal with
    | none => Text.trim (lossy g.stderr)
    | some sig =>
      let stderr := Text.trim (lossy g.stderr)
      (if stderr = "" then stderr else stderr ++ "\n") ++ sig

/-- Execute a command; `timeout` in milliseconds is a deadline for the whole exchange. -/
def execute (config : SshConfig) (channel : Channel) : Except SshError CommandResult :=
  match channel with
  | .notOpened reason => .error (.channelError reason)
  | .notSent reason => .error (.executionFailed reason)
  | .messages msgs inTime =>
    match config.commandTimeout, inTime with
    | some timeout, false => .error (.timeout ((timeout : ℚ) / 1000))
    | _, _ => .ok ((gather msgs).result lossy)

/-- The native `execute` function, once connected: success is exit code 0. -/
def executeCommand (config : SshConfig) (channel : Channel) : Except NativeError String :=
  match execute lossy config channel with
  | .error e => .error (.execution "SSH execute failed" e)
  | .ok result =>
    if result.exitCode = 0 then .ok result.stdout
    else .error (.failed ("SSH command exited " ++ toString result.exitCode ++ ": " ++ result.stderr))

end

/-! ## Uploads -/

def isAsciiControl (c : Char) : Bool := c.toNat < 32 || c.toNat = 127

/-- Simple shell escaping for remote paths. -/
def shellEscape (s : String) : Except SshError String :=
  if s.toList.any isAsciiControl then .error (.invalidPath s)
  else .ok ("'" ++ String.ofList (s.toList.flatMap fun c => if c = '\'' then ['\'', '\\', '\'', '\''] else [c]) ++ "'")

/-- The command of an upload. -/
def uploadCommand (remotePath : String) : Except SshError String := do
  let target ← shellEscape remotePath
  let mode ← shellEscape remotePath
  pure ("cat > " ++ target ++ " && chmod 755 " ++ mode)

/-- What the channel does for an upload: sending may also fail at the file or at its end. -/
inductive UploadChannel where
  | notOpened (reason : String)
  | notSent (reason : String)
  | messages (msgs : List ChannelMsg) (inTime : Bool)

/-- One turn of the loop that waits for the end: is there a status, and was the last one 0? -/
def uploadRead (s : Bool × Bool) : ChannelMsg → Bool × Bool
  | .exitStatus status => (true, status = 0)
  | _ => s

def uploadRejected (msgs : List ChannelMsg) : Bool :=
  let (gotExitStatus, exitOk) := msgs.foldl uploadRead (false, true)
  gotExitStatus && !exitOk

/-- What is sent, and the outcome. -/
structure Upload where
  command : Option String
  result : Except SshError Unit

/-- Upload a file that was read locally, or not. -/
def uploadFile (config : SshConfig) (content : Except String (List UInt8)) (remotePath : String) (channel : UploadChannel) : Upload :=
  match content with
  | .error reason => ⟨none, .error (.uploadFailed ("read local file: " ++ reason))⟩
  | .ok _ =>
    match channel with
    | .notOpened reason => ⟨none, .error (.channelError reason)⟩
    | .notSent reason =>
      match uploadCommand remotePath with
      | .error e => ⟨none, .error e⟩
      | .ok cmd => ⟨some cmd, .error (.uploadFailed reason)⟩
    | .messages msgs inTime =>
      match uploadCommand remotePath with
      | .error e => ⟨none, .error e⟩
      | .ok cmd =>
        match config.commandTimeout, inTime with
        | some timeout, false => ⟨some cmd, .error (.timeout ((timeout : ℚ) / 1000))⟩
        | _, _ =>
          if uploadRejected msgs then ⟨some cmd, .error (.uploadFailed "remote write exited with non-zero status")⟩
          else ⟨some cmd, .ok ()⟩

end Tumult.Ssh
