import Tumult.Exec.Scaffold
import Tumult.Ssh.Session

/-!
# Commands that reach a shell

A value that is put into a command line in single quotes is one word of it, whatever its characters. A remote command succeeded when
the last status that the remote end sent is 0.
-/

namespace Tumult

open ShellWords (Token quote tokens run)

/-! ## Quoted values -/

/-- A value in single quotes, as both quoting functions write it. -/
theorem toList_quote (s : String) :
    ("'" ++ String.ofList (s.toList.flatMap fun c => if c = '\'' then ['\'', '\\', '\'', '\''] else [c]) ++ "'").toList =
      quote s.toList := by
  have hquote : "'".toList = ['\''] := by decide
  rw [String.toList_append, String.toList_append, hquote, String.toList_ofList]
  rfl

section

variable (ts : List Token) (cs : List Char)

/-- A literal word of a command line. -/
theorem run_word (s : String) (word : List Char) (h : s.toList = word) (hne : word ≠ []) (hall : word.all ShellWords.isLiteral = true) :
    run (ts, .blank) s.toList = some (ts, .word s.toList) := ShellWords.run_word ts (h ▸ hne) (h ▸ hall)

theorem run_space : run (ts, .word cs) " ".toList = some (ts ++ [.word cs], .blank) := by
  have hspace : " ".toList = [' '] := by decide
  rw [hspace, ShellWords.run_blank]

theorem run_redirect : run (ts, .blank) "> ".toList = some (ts ++ [.redirect], .blank) := by
  have hchars : "> ".toList = ['>', ' '] := by decide
  rw [hchars, ShellWords.run_redirect]

theorem run_andIf : run (ts, .blank) "&& ".toList = some (ts ++ [.andIf], .blank) := by
  have hchars : "&& ".toList = ['&', '&', ' '] := by decide
  rw [hchars, ShellWords.run_andIf]

end

namespace Ssh

theorem shellEscape_eq (s : String) :
    shellEscape s = if s.toList.any isAsciiControl then .error (.invalidPath s) else .ok (String.ofList (quote s.toList)) := by
  rw [shellEscape, ← toList_quote, String.ofList_toList]

/-- There is a command exactly for a path without control characters. -/
theorem uploadCommand_cases (remotePath : String) :
    (remotePath.toList.any isAsciiControl = true ∧ ∃ e, uploadCommand remotePath = .error e) ∨
    remotePath.toList.any isAsciiControl = false ∧ ∃ cmd, uploadCommand remotePath = .ok cmd := by
  unfold uploadCommand
  rw [shellEscape_eq]
  cases hcontrol : remotePath.toList.any isAsciiControl with
  | true => exact .inl ⟨rfl, _, rfl⟩
  | false => exact .inr ⟨rfl, _, rfl⟩

/-- An upload's path is refused if it has a control character. Otherwise the shell reads the command as writing to exactly that path
and changing the mode of exactly that path, and nothing else. -/
theorem uploadCommand_words (remotePath : String) :
    (remotePath.toList.any isAsciiControl = true ∧ uploadCommand remotePath = .error (.invalidPath remotePath)) ∨
    remotePath.toList.any isAsciiControl = false ∧ ∃ cmd, uploadCommand remotePath = .ok cmd ∧
      tokens cmd.toList = some [.word "cat".toList, .redirect, .word remotePath.toList, .andIf, .word "chmod".toList,
        .word "755".toList, .word remotePath.toList] := by
  unfold uploadCommand
  rw [shellEscape_eq]
  cases hcontrol : remotePath.toList.any isAsciiControl with
  | true => exact .inl ⟨rfl, rfl⟩
  | false =>
    refine .inr ⟨rfl, _, rfl, ?_⟩
    have hcat (ts : List Token) := run_word ts "cat" ['c', 'a', 't'] (by decide) (by decide) (by decide)
    have hchmod (ts : List Token) := run_word ts "chmod" ['c', 'h', 'm', 'o', 'd'] (by decide) (by decide) (by decide)
    have hmode (ts : List Token) := run_word ts "755" ['7', '5', '5'] (by decide) (by decide) (by decide)
    have hopen : "cat > " = "cat" ++ " " ++ "> " := by decide
    have hthen : " && chmod 755 " = " " ++ "&& " ++ "chmod" ++ " " ++ "755" ++ " " := by decide
    have htarget : (String.ofList (quote remotePath.toList)).toList = quote remotePath.toList := String.toList_ofList
    rw [hopen, hthen, tokens]
    simp only [String.toList_append, htarget, ShellWords.run_append, Option.bind_some, hcat, hchmod, hmode, run_space, run_redirect,
      run_andIf, ShellWords.run_quote, ShellWords.finish, List.append_assoc, List.cons_append, List.nil_append]

/-! ## Outcomes -/

/-- The status that a message carries. -/
def ChannelMsg.status? : ChannelMsg → Option UInt32
  | .exitStatus status => some status
  | _ => none

/-- The last status that was sent. -/
def lastStatus (msgs : List ChannelMsg) : Option UInt32 := (msgs.filterMap ChannelMsg.status?).getLast?

/-- The output that a message carries. -/
def ChannelMsg.output : ChannelMsg → List UInt8
  | .data bytes => bytes
  | _ => []

theorem lastStatus_append (msgs : List ChannelMsg) (msg : ChannelMsg) :
    lastStatus (msgs ++ [msg]) = msg.status?.or (lastStatus msgs) := by
  unfold lastStatus
  rw [List.filterMap_append, List.getLast?_append]
  cases hstatus : msg.status? <;> simp [hstatus]

/-- What the read loop gathers (induction on the messages, from their end). -/
theorem gather_spec (msgs : List ChannelMsg) :
    (gather msgs).exitCode = lastStatus msgs ∧ (gather msgs).stdout = msgs.flatMap ChannelMsg.output := by
  induction msgs using List.reverseRecOn with
  | nil => exact ⟨rfl, rfl⟩
  | append_singleton msgs msg ih =>
    have hlast : gather (msgs ++ [msg]) = (gather msgs).read msg := by rw [gather, List.foldl_append]; rfl
    rw [hlast, lastStatus_append, List.flatMap_append, List.flatMap_singleton]
    cases msg with
    | data bytes => exact ⟨ih.1, congrArg (· ++ bytes) ih.2⟩
    | extendedData bytes ext =>
      simp only [Gathered.read]
      split <;> simpa [ChannelMsg.status?, ChannelMsg.output] using ih
    | exitStatus status => simpa [Gathered.read, ChannelMsg.status?, ChannelMsg.output] using ih.2
    | exitSignal name coreDumped => simpa [Gathered.read, ChannelMsg.status?, ChannelMsg.output] using ih
    | other => simpa [Gathered.read, ChannelMsg.status?, ChannelMsg.output] using ih

/-- The upload's loop keeps the last status too. -/
theorem uploadRead_spec (msgs : List ChannelMsg) :
    (msgs.foldl uploadRead (false, true)).1 = (lastStatus msgs).isSome ∧
      ((msgs.foldl uploadRead (false, true)).2 = true ↔ ∀ status ∈ lastStatus msgs, status = 0) := by
  induction msgs using List.reverseRecOn with
  | nil => simp [lastStatus]
  | append_singleton msgs msg ih =>
    rw [List.foldl_append, lastStatus_append]
    cases msg with
    | exitStatus status => simp [uploadRead, ChannelMsg.status?]
    | data | extendedData | exitSignal | other => simpa [uploadRead, ChannelMsg.status?] using ih

/-- A command got its messages in time: all of them, if there is no deadline. -/
def InTime (config : SshConfig) (inTime : Bool) : Prop := config.commandTimeout = none ∨ inTime = true

theorem execute_messages (lossy : List UInt8 → String) (config : SshConfig) (msgs : List ChannelMsg) (inTime : Bool) :
    (InTime config inTime → execute lossy config (.messages msgs inTime) = .ok ((gather msgs).result lossy)) ∧
    (¬ InTime config inTime → ∃ e, execute lossy config (.messages msgs inTime) = .error e) := by
  unfold InTime execute
  cases config.commandTimeout <;> cases inTime <;> simp

/-- A result is a success exactly when the last status is 0: a signal gives 137, and no status 1. -/
theorem exitCode_eq_zero_iff (lossy : List UInt8 → String) (msgs : List ChannelMsg) :
    ((gather msgs).result lossy).exitCode = 0 ↔ lastStatus msgs = some 0 := by
  rw [← (gather_spec msgs).1, Gathered.result]
  cases (gather msgs).exitCode with
  | none => cases (gather msgs).exitSignal <;> simp
  | some status => simp

/-- A native command succeeds exactly when its channel closed in time and the last status sent on it is 0; it returns the output, in
order. A channel that closes without a status, or with a signal, is a failure. -/
theorem executeCommand_ok_iff (lossy : List UInt8 → String) (config : SshConfig) (channel : Channel) (stdout : String) :
    executeCommand lossy config channel = .ok stdout ↔
      ∃ msgs inTime, channel = .messages msgs inTime ∧ InTime config inTime ∧ lastStatus msgs = some 0 ∧
        stdout = Text.trim (lossy (msgs.flatMap ChannelMsg.output)) := by
  cases channel with
  | notOpened reason => simp [executeCommand, execute]
  | notSent reason => simp [executeCommand, execute]
  | messages msgs inTime =>
    by_cases hin : InTime config inTime
    · simp only [executeCommand, (execute_messages lossy config msgs inTime).1 hin]
      have hstdout : ((gather msgs).result lossy).stdout = Text.trim (lossy (msgs.flatMap ChannelMsg.output)) := by
        rw [Gathered.result, (gather_spec msgs).2]
      have hexit := exitCode_eq_zero_iff lossy msgs
      constructor
      · intro h
        by_cases hzero : ((gather msgs).result lossy).exitCode = 0
        · rw [if_pos hzero] at h
          exact ⟨msgs, inTime, rfl, hin, hexit.mp hzero, by rw [← hstdout, Except.ok.inj h]⟩
        · rw [if_neg hzero] at h
          cases h
      · rintro ⟨_, _, ⟨⟩, -, hlast, rfl⟩
        rw [if_pos (hexit.mpr hlast), hstdout]
    · obtain ⟨e, he⟩ := (execute_messages lossy config msgs inTime).2 hin
      simp only [executeCommand, he]
      refine iff_of_false (fun h => by cases h) ?_
      rintro ⟨_, _, ⟨⟩, hin', -⟩
      exact hin hin'

/-- An upload that got its messages in time succeeds exactly when no status other than 0 was the last one. -/
theorem uploadFile_ok_iff (config : SshConfig) (content : Except String (List UInt8)) (remotePath : String)
    (channel : UploadChannel) :
    (uploadFile config content remotePath channel).result = .ok () ↔
      (∃ cs, content = .ok cs) ∧ remotePath.toList.any isAsciiControl = false ∧
        ∃ msgs inTime, channel = .messages msgs inTime ∧ InTime config inTime ∧ ∀ status ∈ lastStatus msgs, status = 0 := by
  cases content with
  | error reason => simp [uploadFile]
  | ok cs =>
    have hcommand := uploadCommand_cases remotePath
    cases channel with
    | notOpened reason => simp [uploadFile]
    | notSent reason =>
      refine iff_of_false ?_ (by rintro ⟨-, -, _, _, hchannel, -⟩; cases hchannel)
      rcases hcommand with ⟨-, e, he⟩ | ⟨-, cmd, hcmd⟩
      · simp [uploadFile, he]
      · simp [uploadFile, hcmd]
    | messages msgs inTime =>
      rcases hcommand with ⟨hcontrol, e, he⟩ | ⟨hplain, cmd, hcmd⟩
      · simp [uploadFile, he, hcontrol]
      · obtain ⟨hgot, hok⟩ := uploadRead_spec msgs
        have hrejected : uploadRejected msgs = false ↔ ∀ status ∈ lastStatus msgs, status = 0 := by
          rw [← hok, show uploadRejected msgs = ((msgs.foldl uploadRead (false, true)).1 &&
            !(msgs.foldl uploadRead (false, true)).2) from rfl, hgot]
          cases hlast : lastStatus msgs with
          | none => simpa [hlast] using hok
          | some status => simp
        have hresult : (uploadFile config (.ok cs) remotePath (.messages msgs inTime)).result = .ok () ↔
            InTime config inTime ∧ uploadRejected msgs = false := by
          simp only [uploadFile, hcmd, InTime]
          cases config.commandTimeout <;> cases inTime <;> cases uploadRejected msgs <;> simp
        rw [hresult, hrejected]
        constructor
        · intro h
          exact ⟨⟨cs, rfl⟩, hplain, msgs, inTime, rfl, h⟩
        · rintro ⟨-, -, _, _, ⟨⟩, h⟩
          exact h

end Ssh

namespace Scaffold

/-- A generated probe runs the program it names, with the interpolated value as one argument. -/
theorem probe_words (target url expect : String) :
    tokens (ProbeSpec.defaultFor target).commandAndExpect.1.toList =
      some [.word "echo".toList, .word target.toList, .word "steady-state".toList, .word "ok".toList] ∧
    tokens (ProbeSpec.http url expect).commandAndExpect.1.toList =
      some [.word "curl".toList, .word "-fsS".toList, .word url.toList] := by
  have hquote (s : String) : (shellQuote s).toList = quote s.toList := toList_quote s
  have hecho (ts : List Token) := run_word ts "echo" ['e', 'c', 'h', 'o'] (by decide) (by decide) (by decide)
  have hsteady (ts : List Token) :=
    run_word ts "steady-state" ['s', 't', 'e', 'a', 'd', 'y', '-', 's', 't', 'a', 't', 'e'] (by decide) (by decide) (by decide)
  have hok (ts : List Token) := run_word ts "ok" ['o', 'k'] (by decide) (by decide) (by decide)
  have hcurl (ts : List Token) := run_word ts "curl" ['c', 'u', 'r', 'l'] (by decide) (by decide) (by decide)
  have hflags (ts : List Token) := run_word ts "-fsS" ['-', 'f', 's', 'S'] (by decide) (by decide) (by decide)
  have hopen : "echo " = "echo" ++ " " := by decide
  have hend : " steady-state ok" = " " ++ "steady-state" ++ " " ++ "ok" := by decide
  have hget : "curl -fsS " = "curl" ++ " " ++ "-fsS" ++ " " := by decide
  constructor
  · rw [ProbeSpec.defaultFor, ProbeSpec.commandAndExpect, hopen, hend, tokens]
    simp only [String.toList_append, hquote, ShellWords.run_append, Option.bind_some, hecho, hsteady, hok, run_space,
      ShellWords.run_quote, ShellWords.finish, List.append_assoc, List.cons_append, List.nil_append]
  · rw [ProbeSpec.commandAndExpect, hget, tokens]
    simp only [String.toList_append, hquote, ShellWords.run_append, Option.bind_some, hcurl, hflags, run_space,
      ShellWords.run_quote, ShellWords.finish, List.append_assoc, List.cons_append, List.nil_append]

end Scaffold

end Tumult
