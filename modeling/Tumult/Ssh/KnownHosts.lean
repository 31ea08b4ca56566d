import Tumult.Lib.Interleave

/-!
# SSH host keys

The configuration of a connection, and the check of the server's key against a `known_hosts` file: strict verification, trust on
first use, or none. Lines of the file are read by a library, which is a parameter here.
-/

namespace Tumult.Ssh

/-- Policy for verifying the server's host key. -/
inductive HostKeyPolicy where
  | verify
  | trustOnFirstUse
  | acceptAny
  deriving DecidableEq, Repr

inductive AuthMethod where
  | key (keyPath : String) (passphrase : Option String)
  | agent
  deriving DecidableEq, Repr

/-- Configuration of a connection; timeouts in milliseconds. -/
structure SshConfig where
  host : String
  port : UInt16
  user : String
  auth : AuthMethod
  connectTimeout : Nat
  commandTimeout : Option Nat
  hostKeyPolicy : HostKeyPolicy
  knownHostsPath : Option String
  deriving DecidableEq, Repr

inductive SshError where
  | connectionFailed (host : String) (port : UInt16) (reason : String)
  | channelError (reason : String)
  | executionFailed (reason : String)
  | uploadFailed (reason : String)
  | hostKeyNotFound (host fingerprint : String)
  | hostKeyMismatch (host expectedFingerprint actualFingerprint : String)
  | knownHostsIo (path reason : String)
  | timeout (seconds : ℚ)
  | invalidPath (path : String)
  deriving DecidableEq, Repr

/-! ## Patterns -/

/-- Patterns of an entry: a list of them, or a hashed name, which is not read. -/
inductive HostPatterns where
  | patterns (pats : List String)
  | hashedName
  deriving DecidableEq, Repr

/-- The pattern that is written for a host and a port. -/
def knownHostsHostPattern (host : String) (port : UInt16) : String :=
  if port = 22 then host else "[" ++ host ++ "]:" ++ toString port.toNat

/-- `*` stands for any text and `?` for any one character. -/
def globMatchInner : List Char → List Char → Bool
  | [], [] => true
  | [], _ :: _ => false
  | p :: pat, [] => if p = '*' then globMatchInner pat [] else false
  | p :: pat, h :: hay =>
    if p = '*' then globMatchInner pat (h :: hay) || globMatchInner (p :: pat) hay
    else if p = '?' then globMatchInner pat hay
    else p = h && globMatchInner pat hay

def globMatches (pattern haystack : String) : Bool := globMatchInner pattern.toList haystack.toList

/-- Does one pattern match? Negated patterns never do. -/
def patternMatchesHost (host : String) (port : UInt16) (pat : String) : Bool :=
  if pat.toList.head? = some '!' then false
  else pat = host && port = 22 || pat = "[" ++ host ++ "]:" ++ toString port.toNat || globMatches pat host && port = 22

def entryMatchesHost (patterns : HostPatterns) (host : String) (port : UInt16) : Bool :=
  match patterns with
  | .hashedName => false
  | .patterns pats => pats.any (patternMatchesHost host port)

/-! ## The file -/

/-- An entry of the file. -/
structure Entry (κ : Type) where
  hostPatterns : HostPatterns
  publicKey : κ

/-- What the library of keys does: the fingerprint and the text of a key, and what a line of `known_hosts` is read as. A line may
have nothing on it, may not be readable, or is an entry. -/
structure SshKeys (κ : Type) where
  fingerprint : κ → String
  toOpenssh : κ → String
  readLine : List Char → Option (Except Unit (Entry κ))

variable {κ : Type} (K : SshKeys κ)

/-- Lines of a text, without their terminators; what follows the last terminator is a line unless it is empty. -/
def linesFrom : List Char → List Char → List (List Char)
  | line, [] => if line = [] then [] else [line.reverse]
  | line, c :: cs =>
    if c = '\n' then (if line.head? = some '\r' then line.tail else line).reverse :: linesFrom [] cs else linesFrom (c :: line) cs

def lines (content : List Char) : List (List Char) := linesFrom [] content

/-- The entries of a file that can be read, in its order. -/
def knownHosts (content : List Char) : List (Entry κ) := ((lines content).filterMap K.readLine).filterMap Except.toOption

/-- The first entry that matches decides. -/
def findAndVerifyEntry (host : String) (port : UInt16) (content : List Char) (actualFp : String) : Except SshError Bool :=
  match (knownHosts K content).find? fun entry => entryMatchesHost entry.hostPatterns host port with
  | none => .error (.hostKeyNotFound host actualFp)
  | some entry =>
    if K.fingerprint entry.publicKey = actualFp then .ok true
    else .error (.hostKeyMismatch host (K.fingerprint entry.publicKey) actualFp)

/-- What the disk does when a line is appended: all of it is written, or it fails behind so many characters. -/
inductive Append where
  | done
  | failed (written : Nat) (error : SshError)
  deriving DecidableEq, Repr

/-- How much of a line an append writes. -/
def Append.written (line : List Char) : Append → List Char
  | .done => line
  | .failed n _ => line.take n

/-- A line is written as a whole or not at all. -/
def Append.Whole (line : List Char) (a : Append) : Prop := a.written line = line ∨ a.written line = []

/-- The line of an entry. -/
def entryLine (host : String) (port : UInt16) (key : κ) : List Char :=
  (knownHostsHostPattern host port ++ " " ++ K.toOpenssh key ++ "\n").toList

/-! ## The check of a server's key -/

/-- The server that a client connects to, by which policy, and the key that it presents. -/
structure ClientHandler (κ : Type) where
  host : String
  port : UInt16
  knownHostsPath : String
  policy : HostKeyPolicy
  serverKey : κ

/-- What reading the file gives: a text, nothing, or an error. -/
inductive Read where
  | content (cs : List Char)
  | notFound
  | failed (reason : String)

/-- What a check has decided when it has read the file; `none` if an entry is to be appended. -/
def ClientHandler.afterRead (h : ClientHandler κ) : Read → Option (Except SshError Bool)
  | .failed reason => some (.error (.knownHostsIo h.knownHostsPath reason))
  | .notFound =>
    if h.policy = .verify then some (.error (.hostKeyNotFound h.host (K.fingerprint h.serverKey))) else none
  | .content cs =>
    if h.policy = .verify then some (findAndVerifyEntry K h.host h.port cs (K.fingerprint h.serverKey))
    else if (knownHosts K cs).any fun entry => entryMatchesHost entry.hostPatterns h.host h.port then
      some (findAndVerifyEntry K h.host h.port cs (K.fingerprint h.serverKey))
    else none

/-- A check: before it reads the file, and when it is to append an entry. -/
inductive CheckPoint where
  | start
  | absent
  deriving DecidableEq, Repr

inductive CheckLabel (κ : Type) where
  | began (handler : ClientHandler κ)
  | result (handler : ClientHandler κ) (r : Except SshError Bool)
  | absent (handler : ClientHandler κ)
  | appended (handler : ClientHandler κ) (outcome : Append)

def CheckLabel.handler : CheckLabel κ → ClientHandler κ
  | .began h => h
  | .result h _ => h
  | .absent h => h
  | .appended h _ => h

/-- The file; `none` if there is none. -/
abbrev File := Option (List Char)

/-- The file and what reading it may give. -/
inductive Reads : File → Read → Prop where
  | content (cs : List Char) : Reads (some cs) (.content cs)
  | notFound : Reads none .notFound
  | failed (file : File) (reason : String) : Reads file (.failed reason)

/-- One step of `check_server_key`: under `AcceptAny` it is over at once, otherwise it reads, then perhaps appends. -/
inductive CheckStep : File → ClientHandler κ × CheckPoint → CheckLabel κ → File → List (ClientHandler κ × CheckPoint) → Prop where
  | acceptAny {file : File} {h : ClientHandler κ} (hp : h.policy = .acceptAny) :
      CheckStep file (h, .start) (.result h (.ok true)) file []
  | read {file : File} {h : ClientHandler κ} {r : Read} {result : Except SshError Bool} (hp : h.policy ≠ .acceptAny)
      (hr : Reads file r) (hresult : h.afterRead K r = some result) : CheckStep file (h, .start) (.result h result) file []
  | absent {file : File} {h : ClientHandler κ} {r : Read} (hp : h.policy ≠ .acceptAny) (hr : Reads file r)
      (hresult : h.afterRead K r = none) : CheckStep file (h, .start) (.absent h) file [(h, .absent)]
  | append {file : File} {h : ClientHandler κ} (a : Append) :
      CheckStep file (h, .absent) (.appended h a)
        (some (file.getD [] ++ a.written (entryLine K h.host h.port h.serverKey))) []
  | notOpened {file : File} {h : ClientHandler κ} (error : SshError) :
      CheckStep file (h, .absent) (.appended h (.failed 0 error)) file []

/-- Checks that share a file. Another one may begin at any time. -/
def checks : Interleave.System File (ClientHandler κ × CheckPoint) (CheckLabel κ) where
  step := CheckStep K
  reset c l c' := ∃ h, l = .began h ∧ c' = ⟨c.shared, (h, .start) :: c.tasks⟩

end Tumult.Ssh
