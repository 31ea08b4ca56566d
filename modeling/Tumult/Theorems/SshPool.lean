import Tumult.Ssh.Pool

/-!
# What a pooled session is used for

Whatever calls interleave, a session is in the pool once or in the hands of one call. A connection lives by turns: it is made, runs a
command, is found alive, runs the next one, until it is found stale or dropped; and it only runs commands for configurations of the
key that it was made for.
-/

namespace Tumult.Ssh

open Interleave

/-- The last thing that happened to a connection. -/
def lastOf (history : List SessionEvent) (connection : Nat) : Option SessionEvent :=
  (history.filter (·.session.connection = connection)).getLast?

/-- What may happen to a session after what happened to its connection last. -/
inductive Follows : Option SessionEvent → SessionEvent → Prop where
  | connected (session : SshSession) : Follows none (.connected session)
  | first (session : SshSession) (config : SshConfig) (command : String) :
      Follows (some (.connected session)) (.ran session config command)
  | next (session : SshSession) (config : SshConfig) (command : String) :
      Follows (some (.probed session true)) (.ran session config command)
  | probed (session : SshSession) (config : SshConfig) (command : String) (ok : Bool) :
      Follows (some (.ran session config command)) (.probed session ok)

/-- The key of a command's configuration is that of the connection it runs on. -/
def SessionEvent.SameKey : SessionEvent → Prop
  | .ran session config _ => PoolKey.fromConfig session.config = .fromConfig config
  | _ => True

/-- Every event follows from the last one of its connection, and every command runs under its key. -/
def Lives (history : List SessionEvent) : Prop :=
  ∀ pre e post, history = pre ++ e :: post → Follows (lastOf pre e.session.connection) e ∧ e.SameKey

/-- The sessions that a call holds. -/
def PoolTask.held : PoolTask → List SshSession
  | .execute _ _ (.probing entry) => [entry.session]
  | .execute _ _ (.ready session _) => [session]
  | .execute _ _ (.running session _) => [session]
  | _ => []

def pooled (s : PoolState) : List SshSession := s.entries.map (·.2.session)

/-- What is always so: no connection is in two places, the pool has one entry for a key and each under its own, and the history of
every connection is in order. -/
structure PoolSound (c : Config PoolState PoolTask) : Prop where
  exclusive : ((pooled c.shared ++ c.tasks.flatMap PoolTask.held).map SshSession.connection).Nodup
  unique : (c.shared.entries.map Prod.fst).Nodup
  filed : ∀ e ∈ c.shared.entries, PoolKey.fromConfig e.2.session.config = e.1 ∧ PoolKey.fromConfig e.2.config = e.1
  lives : Lives c.shared.history

/-! ## Histories -/

section

variable {history : List SessionEvent} {e : SessionEvent} {n : Nat}

theorem lastOf_append : lastOf (history ++ [e]) n = if e.session.connection = n then some e else lastOf history n := by
  unfold lastOf
  rw [List.filter_append]
  by_cases hn : e.session.connection = n
  · simp [hn]
  · simp [hn]

theorem lastOf_eq_none : lastOf history n = none ↔ ∀ e ∈ history, e.session.connection ≠ n := by
  simp [lastOf]

theorem Lives.append (h : Lives history) (hfollows : Follows (lastOf history e.session.connection) e) (hkey : e.SameKey) :
    Lives (history ++ [e]) := by
  intro pre e' post heq
  rcases List.eq_nil_or_concat post with rfl | ⟨init, last, rfl⟩
  · obtain ⟨rfl, hlast⟩ := List.append_inj' heq rfl
    obtain rfl := (List.cons.inj hlast).1
    exact ⟨hfollows, hkey⟩
  · rw [List.concat_eq_append, ← List.cons_append, ← List.append_assoc] at heq
    obtain ⟨rfl, -⟩ := List.append_inj' heq rfl
    exact h pre e' init rfl

end

/-! ## The invariant -/

/-- The shared part: what the pool holds has been put back after a command. -/
structure PoolInv (s : PoolState) : Prop where
  unique : (s.entries.map Prod.fst).Nodup
  exclusive : ((pooled s).map SshSession.connection).Nodup
  filed : ∀ e ∈ s.entries, PoolKey.fromConfig e.2.session.config = e.1 ∧ PoolKey.fromConfig e.2.config = e.1
  idle : ∀ session ∈ pooled s, ∃ config command, lastOf s.history session.connection = some (.ran session config command)
  made : ∀ e ∈ s.history, e.session.connection < s.connections
  lives : Lives s.history

/-- Where a session that a call holds is in its life, and that its key is the call's. -/
def PointInv (s : PoolState) (config : SshConfig) : ExecutePoint → Prop
  | .start => True
  | .probing entry =>
    PoolKey.fromConfig entry.session.config = .fromConfig config ∧ PoolKey.fromConfig entry.config = .fromConfig config ∧
      ∃ config' command, lastOf s.history entry.session.connection = some (.ran entry.session config' command)
  | .connecting config' => PoolKey.fromConfig config' = .fromConfig config
  | .ready session config' =>
    PoolKey.fromConfig session.config = .fromConfig config ∧ PoolKey.fromConfig config' = .fromConfig config ∧
      (lastOf s.history session.connection = some (.connected session) ∨
        lastOf s.history session.connection = some (.probed session true))
  | .running session config' =>
    PoolKey.fromConfig session.config = .fromConfig config ∧ PoolKey.fromConfig config' = .fromConfig config ∧
      ∃ config' command, lastOf s.history session.connection = some (.ran session config' command)

/-- The part of a call: what it holds is not in the pool, and is at its point. -/
def TaskInv (s : PoolState) (t : PoolTask) : Prop :=
  (∀ session ∈ t.held, session.connection ∉ (pooled s).map SshSession.connection) ∧
    ∀ config command p, t = .execute config command p → PointInv s config p

/-- Two calls hold different connections. -/
def Apart (t u : PoolTask) : Prop := ∀ session ∈ t.held, ∀ session' ∈ u.held, session.connection ≠ session'.connection

/-- A connection that a call holds has a history, so it has a number that was given out. -/
theorem PointInv.last {s : PoolState} {config : SshConfig} {command : String} {p : ExecutePoint} (h : PointInv s config p) :
    ∀ session ∈ (PoolTask.execute config command p).held, ∃ e ∈ s.history, e.session = session := by
  intro session hsession
  have hmem {e : SessionEvent} (hlast : lastOf s.history session.connection = some e) : e ∈ s.history :=
    (List.mem_filter.mp (List.mem_of_getLast? hlast)).1
  cases p with
  | start => cases hsession
  | connecting config' => cases hsession
  | probing entry =>
    obtain rfl := List.mem_singleton.mp hsession
    obtain ⟨-, -, config', command', hlast⟩ := h
    exact ⟨_, hmem hlast, rfl⟩
  | ready session' config' =>
    obtain rfl := List.mem_singleton.mp hsession
    obtain ⟨-, -, hlast | hlast⟩ := h
    · exact ⟨_, hmem hlast, rfl⟩
    · exact ⟨_, hmem hlast, rfl⟩
  | running session' config' =>
    obtain rfl := List.mem_singleton.mp hsession
    obtain ⟨-, -, config', command', hlast⟩ := h
    exact ⟨_, hmem hlast, rfl⟩

/-! ## Steps -/

section

variable {s : PoolState} {t u : PoolTask} {e : SessionEvent}

theorem TaskInv.made (hs : PoolInv s) (h : TaskInv s t) : ∀ session ∈ t.held, session.connection < s.connections := by
  intro session hsession
  cases t with
  | execute config command p =>
    obtain ⟨e, he, rfl⟩ := (h.2 _ _ _ rfl).last session hsession
    exact hs.made e he
  | evict config => cases hsession
  | clear => cases hsession

/-- Fewer pooled sessions leave a call as it is. -/
theorem TaskInv.mono {entries : Entries} (h : TaskInv s t) (hsub : entries ⊆ s.entries) : TaskInv { s with entries } t := by
  refine ⟨fun session hsession hmem => h.1 session hsession ?_, h.2⟩
  exact List.map_subset _ (List.map_subset _ hsub) hmem

/-- An event of another connection leaves a call as it is. -/
theorem TaskInv.record (h : TaskInv s t) (hother : ∀ session ∈ t.held, session.connection ≠ e.session.connection) :
    TaskInv (s.record e) t := by
  refine ⟨h.1, fun config command p hp => ?_⟩
  have hpoint := h.2 config command p hp
  subst hp
  have hlast : ∀ session ∈ (PoolTask.execute config command p).held,
      lastOf (s.record e).history session.connection = lastOf s.history session.connection := by
    intro session hsession
    rw [PoolState.record, lastOf_append, if_neg (hother session hsession).symm]
  cases p with
  | start => trivial
  | connecting config' => exact hpoint
  | probing entry =>
    rw [PointInv, hlast _ (List.mem_singleton_self _)]
    exact hpoint
  | ready session config' =>
    rw [PointInv, hlast _ (List.mem_singleton_self _)]
    exact hpoint
  | running session config' =>
    rw [PointInv, hlast _ (List.mem_singleton_self _)]
    exact hpoint

theorem PoolInv.sublist {entries : Entries} (h : PoolInv s) (hsub : entries.Sublist s.entries) : PoolInv { s with entries } where
  unique := h.unique.sublist (hsub.map _)
  exclusive := h.exclusive.sublist ((hsub.map _).map _)
  filed e he := h.filed e (hsub.subset he)
  idle session hsession := h.idle session (List.map_subset _ hsub.subset hsession)
  made := h.made
  lives := h.lives

/-- An event of a connection that is not in the pool. -/
theorem PoolInv.record (h : PoolInv s) (hout : e.session.connection ∉ (pooled s).map SshSession.connection)
    (hmade : e.session.connection < s.connections) (hfollows : Follows (lastOf s.history e.session.connection) e)
    (hkey : e.SameKey) : PoolInv (s.record e) where
  unique := h.unique
  exclusive := h.exclusive
  filed := h.filed
  idle session hsession := by
    have hne : e.session.connection ≠ session.connection := by
      intro heq
      exact hout (heq ▸ List.mem_map_of_mem hsession)
    rw [PoolState.record, lastOf_append, if_neg hne]
    exact h.idle session hsession
  made e' he' := by
    rcases List.mem_append.mp he' with he' | he'
    · exact h.made e' he'
    · rw [List.mem_singleton.mp he']
      exact hmade
  lives := h.lives.append hfollows hkey

theorem PoolInv.pooled_made (h : PoolInv s) : ∀ session ∈ pooled s, session.connection < s.connections := by
  intro session hsession
  obtain ⟨config, command, hran⟩ := h.idle session hsession
  have hmem := (List.mem_filter.mp (List.mem_of_getLast? hran)).1
  exact h.made (.ran session config command) hmem

/-- A new connection has a new number. -/
theorem PoolInv.connect (h : PoolInv s) (config : SshConfig) : PoolInv (s.connect config).2 := by
  have hlast : lastOf s.history s.connections = none := by
    rw [lastOf_eq_none]
    intro e he heq
    exact absurd (h.made e he) (by omega)
  have hmore : PoolInv { s with connections := s.connections + 1 } :=
    { h with made := fun e he => (h.made e he).trans (Nat.lt_succ_self _) }
  refine hmore.record (e := .connected ⟨s.connections, config⟩) ?_ (Nat.lt_succ_self _) ?_ trivial
  · rw [List.mem_map]
    rintro ⟨session, hsession, heq⟩
    exact absurd heq (h.pooled_made session hsession).ne
  · have hnone : lastOf s.history (SessionEvent.connected ⟨s.connections, config⟩).session.connection = none := hlast
    rw [hnone]
    exact .connected _

/-- A session that is put back after a command, under the key it is for. -/
theorem PoolInv.insert {key : PoolKey} {entry : PoolEntry} (h : PoolInv s)
    (hout : entry.session.connection ∉ (pooled s).map SshSession.connection)
    (hfiled : PoolKey.fromConfig entry.session.config = key ∧ PoolKey.fromConfig entry.config = key)
    (hidle : ∃ config command, lastOf s.history entry.session.connection = some (.ran entry.session config command)) :
    PoolInv { s with entries := s.entries.insert key entry } where
  unique := Keyed.nodup_upsert h.unique
  exclusive := by
    have hnodup : (s.entries.insert key entry).Nodup := List.Nodup.of_map _ (Keyed.nodup_upsert h.unique)
    have hold : ∀ x ∈ s.entries, x.2.session.connection ≠ entry.session.connection := by
      intro x hx heq
      exact hout (heq ▸ List.mem_map_of_mem (List.mem_map_of_mem hx))
    rw [pooled, List.map_map]
    refine (List.nodup_map_iff_inj_on hnodup).mpr fun x hx y hy heq => ?_
    have hexclusive := h.exclusive
    rw [pooled, List.map_map] at hexclusive
    rcases Keyed.mem_upsert.mp hx with rfl | ⟨-, hx⟩
    · rcases Keyed.mem_upsert.mp hy with rfl | ⟨-, hy⟩
      · rfl
      · exact absurd heq.symm (hold y hy)
    · rcases Keyed.mem_upsert.mp hy with rfl | ⟨-, hy⟩
      · exact absurd heq (hold x hx)
      · exact List.inj_on_of_nodup_map hexclusive hx hy heq
  filed e he := by
    rcases Keyed.mem_upsert.mp he with rfl | ⟨-, he⟩
    · exact hfiled
    · exact h.filed e he
  idle session hsession := by
    obtain ⟨e, he, rfl⟩ := List.mem_map.mp hsession
    rcases Keyed.mem_upsert.mp he with rfl | ⟨-, he⟩
    · exact hidle
    · exact h.idle _ (List.mem_map_of_mem he)
  made := h.made
  lives := h.lives

/-- The entry that a call takes is not left in the pool. -/
theorem PoolInv.taken {key : PoolKey} {entry : PoolEntry} (h : PoolInv s) (hget : s.entries.get key = some entry) :
    (key, entry) ∈ s.entries ∧
      entry.session.connection ∉ (pooled { s with entries := s.entries.remove key }).map SshSession.connection := by
  obtain ⟨e, hfind, rfl⟩ := Option.map_eq_some_iff.mp hget
  have hmem := List.mem_of_find?_eq_some hfind
  have hkey : e.1 = key := by simpa using List.find?_some hfind
  subst hkey
  refine ⟨hmem, fun hleft => ?_⟩
  obtain ⟨session, hsession, heq⟩ := List.mem_map.mp hleft
  obtain ⟨e', he', rfl⟩ := List.mem_map.mp hsession
  obtain ⟨hmem', hne⟩ := List.mem_filter.mp he'
  have hexclusive := h.exclusive
  rw [pooled, List.map_map] at hexclusive
  have hsame : e' = e := List.inj_on_of_nodup_map hexclusive hmem' hmem heq
  simp [hsame] at hne

theorem lastOf_record : lastOf (s.record e).history e.session.connection = some e := by
  rw [PoolState.record, lastOf_append, if_pos rfl]

/-- A call that holds nothing is apart from any other. -/
theorem Apart.of_none (h : t.held = []) (u : PoolTask) : Apart t u := by
  intro session hsession
  rw [h] at hsession
  cases hsession

/-- A point of a call that holds nothing. -/
theorem TaskInv.of_none (h : t.held = []) (hpoint : ∀ config command p, t = .execute config command p → PointInv s config p) :
    TaskInv s t := by
  refine ⟨fun session hsession => ?_, hpoint⟩
  rw [h] at hsession
  cases hsession

/-- What a step of a call owes. -/
theorem PoolStep.keeps {l : PoolLabel} {s' : PoolState} {ts : List PoolTask} (h : PoolStep s t l s' ts) (hs : PoolInv s)
    (ht : TaskInv s t) : Keeps PoolInv TaskInv Apart s t s' ts := by
  have hout := ht.1
  have hnum := ht.made hs
  cases h with
  | @take config command entry hget =>
    obtain ⟨hmem, hleft⟩ := hs.taken hget
    have hin : entry.session ∈ pooled s := List.mem_map_of_mem hmem
    refine .next (hs.sublist List.filter_sublist) ⟨?_, ?_⟩ (fun u hu _ => hu.mono List.filter_sublist.subset) ?_
    · exact List.forall_mem_singleton.mpr hleft
    · intro config' command' p hp
      cases hp
      exact ⟨(hs.filed _ hmem).1, (hs.filed _ hmem).2, hs.idle _ hin⟩
    · intro u hu _
      refine List.forall_mem_singleton.mpr fun session' hsession' heq => ?_
      exact hu.1 session' hsession' (heq ▸ List.mem_map_of_mem hin)
  | «open» hget =>
    refine .next hs (.of_none rfl ?_) (fun u hu _ => hu) (fun u _ _ => .of_none rfl u)
    intro config' command' p hp
    cases hp
    rfl
  | @probeOk config command entry =>
    obtain ⟨hkey, hkey', config', command', hlast⟩ := ht.2 _ _ _ rfl
    have hheld := List.mem_singleton_self entry.session
    refine .next (hs.record (hout _ hheld) (hnum _ hheld) (hlast ▸ .probed _ _ _ _) trivial) ⟨hout, ?_⟩
      (fun u hu hr => hu.record fun session hsession => (hr _ hheld session hsession).symm) (fun u _ hr => hr)
    intro config' command' p hp
    cases hp
    exact ⟨hkey, hkey', .inr lastOf_record⟩
  | @probeStale config command entry =>
    obtain ⟨hkey, hkey', config', command', hlast⟩ := ht.2 _ _ _ rfl
    have hheld := List.mem_singleton_self entry.session
    refine .next (hs.record (hout _ hheld) (hnum _ hheld) (hlast ▸ .probed _ _ _ _) trivial) (.of_none rfl ?_)
      (fun u hu hr => hu.record fun session hsession => (hr _ hheld session hsession).symm) (fun u _ _ => .of_none rfl u)
    intro config' command' p hp
    cases hp
    exact hkey'
  | @connect config config' command =>
    have hkey := ht.2 _ _ _ rfl
    have hconnect := hs.connect config'
    have hnew (u : PoolTask) (hu : TaskInv s u) : ∀ session ∈ u.held, session.connection ≠ s.connections := fun session hsession =>
      (hu.made hs session hsession).ne
    refine .next hconnect ⟨?_, ?_⟩ (fun u hu _ => ?_) (fun u hu _ => ?_)
    · refine List.forall_mem_singleton.mpr fun hmem => ?_
      obtain ⟨session, hsession, heq⟩ := List.mem_map.mp hmem
      exact absurd heq (hs.pooled_made session hsession).ne
    · intro config'' command' p hp
      cases hp
      exact ⟨hkey, hkey, .inl lastOf_record⟩
    · exact TaskInv.record (s := { s with connections := s.connections + 1 }) ⟨hu.1, hu.2⟩ (hnew u hu)
    · exact List.forall_mem_singleton.mpr fun session' hsession' heq => hnew u hu session' hsession' heq.symm
  | connectFailed e => exact .last hs fun u hu _ => hu
  | @run config config' command session =>
    obtain ⟨hkey, hkey', hlast⟩ := ht.2 _ _ _ rfl
    have hheld := List.mem_singleton_self session
    have hfollows : Follows (lastOf s.history session.connection) (.ran session config command) := by
      rcases hlast with hlast | hlast
      · exact hlast ▸ .first _ _ _
      · exact hlast ▸ .next _ _ _
    refine .next (hs.record (hout _ hheld) (hnum _ hheld) hfollows hkey) ⟨hout, ?_⟩
      (fun u hu hr => hu.record fun session hsession => (hr _ hheld session hsession).symm) (fun u _ hr => hr)
    intro config' command' p hp
    cases hp
    exact ⟨hkey, hkey', _, _, lastOf_record⟩
  | @putBack config config' command session result =>
    obtain ⟨hkey, hkey', hlast⟩ := ht.2 _ _ _ rfl
    have hheld := List.mem_singleton_self session
    refine .last (hs.insert (hout _ hheld) ⟨hkey, hkey'⟩ hlast) fun u hu hr => ⟨fun session' hsession' hmem => ?_, hu.2⟩
    obtain ⟨_, hpooled, heq⟩ := List.mem_map.mp hmem
    obtain ⟨e, he, rfl⟩ := List.mem_map.mp hpooled
    rcases Keyed.mem_upsert.mp he with rfl | ⟨-, he⟩
    · exact hr _ hheld session' hsession' heq
    · exact hu.1 session' hsession' (heq ▸ List.mem_map_of_mem (List.mem_map_of_mem he))
  | evict => exact .last (hs.sublist List.filter_sublist) fun u hu _ => hu.mono List.filter_sublist.subset
  | clear => exact .last (hs.sublist (List.nil_sublist _)) fun u hu _ => hu.mono (List.nil_subset _)
  | dropped => exact .last hs fun u hu _ => hu

end

/-! ## Runs -/

theorem apart_symm (t u : PoolTask) (h : Apart t u) : Apart u t := fun session hsession session' hsession' =>
  (h session' hsession' session hsession).symm

/-- A call that begins holds nothing. -/
theorem called_reset {c c' : Config PoolState PoolTask} {l : PoolLabel} (h : Holds PoolInv TaskInv Apart c)
    (hreset : pool.reset c l c') : Holds PoolInv TaskInv Apart c' := by
  obtain ⟨t, hcalled, rfl, rfl⟩ := hreset
  have hheld : t.held = [] := by cases hcalled <;> rfl
  refine ⟨h.shared, List.forall_mem_cons.mpr ⟨.of_none hheld fun config command p hp => ?_, h.task⟩,
    List.pairwise_cons.mpr ⟨fun u _ => .of_none hheld u, h.pair⟩⟩
  subst hp
  cases hcalled
  trivial

/-- The parts of the invariant, put together. -/
theorem PoolSound.of_holds {c : Config PoolState PoolTask} (h : Holds PoolInv TaskInv Apart c) : PoolSound c where
  exclusive := by
    rw [List.map_append, List.nodup_append]
    refine ⟨h.shared.exclusive, ?_, ?_⟩
    · rw [List.map_flatMap, List.nodup_flatMap]
      refine ⟨fun t _ => ?_, h.pair.imp fun {t u} hapart => ?_⟩
      · cases t with
        | execute config command p => cases p <;> simp [PoolTask.held]
        | evict config => simp [PoolTask.held]
        | clear => simp [PoolTask.held]
      · simp only [Function.onFun, List.disjoint_left, List.mem_map]
        rintro _ ⟨session, hsession, rfl⟩ ⟨session', hsession', heq⟩
        exact hapart session hsession session' hsession' heq.symm
    · rintro n hn _ hheld rfl
      obtain ⟨session, hsession, rfl⟩ := List.mem_map.mp hheld
      obtain ⟨t, ht, hsession⟩ := List.mem_flatMap.mp hsession
      exact (h.task t ht).1 session hsession hn
  unique := h.shared.unique
  filed := h.shared.filed
  lives := h.shared.lives

/-- A configuration with an agent. -/
def agentConfig : SshConfig := ⟨"db-01", 22, "ops", .agent, 10000, none, .verify, none⟩

end Tumult.Ssh
