import Tumult.Ssh.Session
import Tumult.Lib.Interleave
import Tumult.Lib.Keyed

/-!
# The pool of SSH sessions

Calls of `execute` take the session of their key out of the pool, probe it, connect anew if it is stale or there is none, run their
command and put the session back. Any number of calls interleave with evictions; a call that is dropped drops what it holds. A
connection has a number, so that sessions are told apart.
-/

namespace Tumult.Ssh

/-- Authentication identity; the passphrase itself is not part of it. -/
inductive PoolAuth where
  | key (keyPath : String) (passphraseProtected : Bool)
  | agent
  deriving DecidableEq, Repr

structure PoolKey where
  host : String
  port : UInt16
  user : String
  auth : PoolAuth
  hostKeyPolicy : HostKeyPolicy
  deriving DecidableEq, Repr

def PoolKey.fromConfig (config : SshConfig) : PoolKey where
  host := config.host
  port := config.port
  user := config.user
  auth :=
    match config.auth with
    | .key keyPath passphrase => .key keyPath passphrase.isSome
    | .agent => .agent
  hostKeyPolicy := config.hostKeyPolicy

/-- A live session: the number of its connection, and the configuration it was made with. -/
structure SshSession where
  connection : Nat
  config : SshConfig
  deriving DecidableEq, Repr

/-- A pooled session, with the configuration to connect anew. -/
structure PoolEntry where
  session : SshSession
  config : SshConfig
  deriving DecidableEq, Repr

abbrev Entries := List (PoolKey × PoolEntry)

/-- The entry of a key. -/
def Entries.get (entries : Entries) (key : PoolKey) : Option PoolEntry := (entries.find? (·.1 = key)).map Prod.snd

def Entries.remove (entries : Entries) (key : PoolKey) : Entries := entries.filter (·.1 ≠ key)

def Entries.insert (entries : Entries) (key : PoolKey) (entry : PoolEntry) : Entries := Keyed.upsert Prod.fst (key, entry) entries

/-- What happens to sessions. -/
inductive SessionEvent where
  | connected (session : SshSession)
  | probed (session : SshSession) (ok : Bool)
  | ran (session : SshSession) (config : SshConfig) (command : String)
  deriving DecidableEq, Repr

def SessionEvent.session : SessionEvent → SshSession
  | .connected session => session
  | .probed session _ => session
  | .ran session _ _ => session

/-- The pool, the number of connections made, and the history of the sessions. -/
structure PoolState where
  entries : Entries
  connections : Nat
  history : List SessionEvent

/-- Points of a call of `execute`. -/
inductive ExecutePoint where
  | start
  | probing (entry : PoolEntry)
  | connecting (config : SshConfig)
  | ready (session : SshSession) (config : SshConfig)
  | running (session : SshSession) (config : SshConfig)
  deriving DecidableEq, Repr

/-- Calls on the pool. -/
inductive PoolTask where
  | execute (config : SshConfig) (command : String) (p : ExecutePoint)
  | evict (config : SshConfig)
  | clear
  deriving DecidableEq, Repr

inductive PoolLabel where
  | called (task : PoolTask)
  | dropped
  | event (e : SessionEvent)
  | connectFailed (e : SshError)
  | returned (result : Except SshError CommandResult)
  | evicted (removed : Bool)
  | other

def PoolState.record (s : PoolState) (e : SessionEvent) : PoolState := { s with history := s.history ++ [e] }

/-- A new connection. -/
def PoolState.connect (s : PoolState) (config : SshConfig) : SshSession × PoolState :=
  (⟨s.connections, config⟩, { s with connections := s.connections + 1 }.record (.connected ⟨s.connections, config⟩))

/-- One step of a call. The map is locked within a step only. -/
inductive PoolStep (s : PoolState) : PoolTask → PoolLabel → PoolState → List PoolTask → Prop where
  | take {config : SshConfig} {command : String} {entry : PoolEntry} (h : s.entries.get (.fromConfig config) = some entry) :
      PoolStep s (.execute config command .start) .other { s with entries := s.entries.remove (.fromConfig config) }
        [.execute config command (.probing entry)]
  | open {config : SshConfig} {command : String} (h : s.entries.get (.fromConfig config) = none) :
      PoolStep s (.execute config command .start) .other s [.execute config command (.connecting config)]
  | probeOk {config : SshConfig} {command : String} {entry : PoolEntry} :
      PoolStep s (.execute config command (.probing entry)) (.event (.probed entry.session true))
        (s.record (.probed entry.session true)) [.execute config command (.ready entry.session entry.config)]
  | probeStale {config : SshConfig} {command : String} {entry : PoolEntry} :
      PoolStep s (.execute config command (.probing entry)) (.event (.probed entry.session false))
        (s.record (.probed entry.session false)) [.execute config command (.connecting entry.config)]
  | connect {config config' : SshConfig} {command : String} :
      PoolStep s (.execute config command (.connecting config')) (.event (.connected (s.connect config').1)) (s.connect config').2
        [.execute config command (.ready (s.connect config').1 config')]
  | connectFailed {config config' : SshConfig} {command : String} (e : SshError) :
      PoolStep s (.execute config command (.connecting config')) (.connectFailed e) s []
  | run {config config' : SshConfig} {command : String} {session : SshSession} :
      PoolStep s (.execute config command (.ready session config')) (.event (.ran session config command))
        (s.record (.ran session config command)) [.execute config command (.running session config')]
  | putBack {config config' : SshConfig} {command : String} {session : SshSession} (result : Except SshError CommandResult) :
      PoolStep s (.execute config command (.running session config')) (.returned result)
        { s with entries := s.entries.insert (.fromConfig config) ⟨session, config'⟩ } []
  | evict {config : SshConfig} :
      PoolStep s (.evict config) (.evicted (s.entries.get (.fromConfig config)).isSome)
        { s with entries := s.entries.remove (.fromConfig config) } []
  | clear : PoolStep s .clear .other { s with entries := [] } []
  | dropped (t : PoolTask) : PoolStep s t .dropped s []

/-- A call that begins. -/
inductive Called : PoolTask → Prop where
  | execute (config : SshConfig) (command : String) : Called (.execute config command .start)
  | evict (config : SshConfig) : Called (.evict config)
  | clear : Called .clear

/-- The calls on a pool; another one may begin at any time. -/
def pool : Interleave.System PoolState PoolTask PoolLabel where
  step := PoolStep
  reset c l c' := ∃ t, Called t ∧ l = .called t ∧ c' = ⟨c.shared, t :: c.tasks⟩

/-- `SshPool::new` -/
def emptyPool : Interleave.Config PoolState PoolTask := ⟨⟨[], 0, []⟩, []⟩

end Tumult.Ssh
