import Tumult.Lake.Snapshots

/-!
# Snapshots survive failed exports

Until an export renames the manifest it writes no file that the manifest in place names, since such a file is reused when its bytes
are those that were published. So a failed or crashed export leaves every table that was served, and after the rename every table is
served from files whose rows are those of the export's snapshot.
-/

namespace Tumult.Lake

open Db (Tx Env Meets)

/-! ## Paths -/

/-- Two texts without the separator, each followed by it, are the same text. -/
theorem eq_of_append_sep {α : Type} {sep : α} {a b x y : List α} (ha : sep ∉ a) (hb : sep ∉ b)
    (h : a ++ sep :: x = b ++ sep :: y) : a = b ∧ x = y := by
  induction a generalizing b with
  | nil =>
    cases b with
    | nil => exact ⟨rfl, (List.cons.inj h).2⟩
    | cons d b => exact absurd ((List.cons.inj h).1 ▸ List.mem_cons_self) hb
  | cons c a ih =>
    cases b with
    | nil => exact absurd ((List.cons.inj h).1 ▸ List.mem_cons_self) ha
    | cons d b =>
      obtain ⟨rfl, hrest⟩ := List.cons.inj h
      obtain ⟨rfl, rfl⟩ := ih (fun hc => ha (List.mem_cons_of_mem _ hc)) (fun hc => hb (List.mem_cons_of_mem _ hc)) hrest
      exact ⟨rfl, rfl⟩

/-- A snapshot's path names its table and its fingerprint. -/
theorem snapshotPath_inj {table table' fp fp' : String} (h : table ∈ tables) (h' : table' ∈ tables)
    (heq : snapshotPath table fp = snapshotPath table' fp') : table = table' ∧ fp = fp' := by
  have hlist : table.toList ++ '/' :: (fp.toList ++ ".parquet".toList) = table'.toList ++ '/' :: (fp'.toList ++ ".parquet".toList) := by
    have hall := congrArg String.toList heq
    simpa [snapshotPath] using hall
  obtain ⟨htable, hrest⟩ := eq_of_append_sep (slash_not_mem_tables h) (slash_not_mem_tables h') hlist
  exact ⟨String.toList_inj.mp htable, String.toList_inj.mp (List.append_cancel_right hrest)⟩

/-- No snapshot has the name of a temporary file. -/
theorem snapshotPath_ne_tempPath (table fp path : String) : snapshotPath table fp ≠ tempPath path := by
  intro h
  have hlast := congrArg (fun s => s.toList.reverse.head?) h
  simp [snapshotPath, tempPath] at hlast

@[simp] theorem setFile_manifest (fs : LakeFs) (path : String) (bytes : Option Bytes) : (fs.setFile path bytes).manifest = fs.manifest :=
  rfl

@[simp] theorem setFile_files_same (fs : LakeFs) (path : String) (bytes : Option Bytes) : (fs.setFile path bytes).files path = bytes := by
  simp [LakeFs.setFile]

theorem setFile_files_of_ne (fs : LakeFs) {path path' : String} (bytes : Option Bytes) (h : path' ≠ path) :
    (fs.setFile path bytes).files path' = fs.files path' := by
  simp [LakeFs.setFile, h]

/-! ## Digests -/

/-- A SHA-256 digest in hexadecimal. -/
def IsDigest (s : String) : Prop := s.utf8ByteSize = 64 ∧ s.toList.all Char.isHexDigit = true

/-- The texts whose digests make up a table's fingerprint. -/
def TableContent.hashed (ctx : LakeCtx) (c : TableContent) : Set String := {s | s ∈ c.columns ∨ s ∈ c.rows ∨ s = fingerprintText ctx c}

/-- What is relied on of SHA-256: the form of its digests, and that no two of the texts and no two of the files at hand have the
same digest. -/
structure CollisionFree (ctx : LakeCtx) (contents : Set TableContent) (files : Set Bytes) : Prop where
  digest : ∀ s, IsDigest (ctx.sha256Hex s)
  texts : Set.InjOn ctx.sha256Hex {s | ∃ c ∈ contents, s ∈ c.hashed ctx}
  files : Set.InjOn ctx.checksum files

/-- Two tables with the same columns and the same rows in some order. -/
def TableContent.Same (c c' : TableContent) : Prop := c.columns = c'.columns ∧ c.rows.Perm c'.rows

/-- A file that a `COPY` of the table wrote. -/
def WrittenFrom (ctx : LakeCtx) (c : TableContent) (bytes : Bytes) : Prop := ∃ c' n, bytes = ctx.copy n c' ∧ c'.Same c

theorem IsDigest.not_mem {s : String} (h : IsDigest s) {c : Char} (hc : c.isHexDigit = false) : c ∉ s.toList := by
  intro hmem
  have := List.all_eq_true.mp h.2 c hmem
  simp [hc] at this

theorem IsDigest.ne_nil {s : String} (h : IsDigest s) : s.toList ≠ [] := by
  intro hnil
  have hs : s = "" := String.toList_inj.mp hnil
  rw [hs] at h
  exact absurd h.1 (by decide)

/-- Joined digests come apart. -/
theorem intercalate_digests_inj {xs ys : List String} (hx : ∀ s ∈ xs, IsDigest s) (hy : ∀ s ∈ ys, IsDigest s)
    (h : ",".intercalate xs = ",".intercalate ys) : xs = ys := by
  have hcomma {zs : List String} (hz : ∀ s ∈ zs, IsDigest s) : ∀ l ∈ zs.map String.toList, ',' ∉ l := by
    intro l hl
    obtain ⟨s, hs, rfl⟩ := List.mem_map.mp hl
    exact (hz s hs).not_mem (by decide)
  have hempty {zs : List String} (hz : ∀ s ∈ zs, IsDigest s) (hnil : [','].intercalate (zs.map String.toList) = []) : zs = [] := by
    cases zs with
    | nil => rfl
    | cons s zs => cases zs <;> simp [(hz s List.mem_cons_self).ne_nil] at hnil
  have hlist : [','].intercalate (xs.map String.toList) = [','].intercalate (ys.map String.toList) := by
    simpa using congrArg String.toList h
  by_cases hxs : xs = []
  · rw [hxs, List.map_nil, List.intercalate_nil] at hlist
    rw [hxs, hempty hy hlist.symm]
  · by_cases hys : ys = []
    · rw [hys, List.map_nil, List.intercalate_nil] at hlist
      exact absurd (hempty hx hlist) hxs
    · have hmap : xs.map String.toList = ys.map String.toList := by
        rw [← List.splitOn_intercalate ',' (hcomma hx) (by simpa using hxs), hlist,
          List.splitOn_intercalate ',' (hcomma hy) (by simpa using hys)]
      exact List.map_injective_iff.mpr (fun _ _ => String.toList_inj.mp) hmap

/-- Neither a digest nor a comma is a colon. -/
theorem colon_not_mem_intercalate {xs : List String} (hx : ∀ s ∈ xs, IsDigest s) : ':' ∉ (",".intercalate xs).toList := by
  induction xs with
  | nil => simp
  | cons s xs ih =>
    have hs := (hx s List.mem_cons_self).not_mem (c := ':') (by decide)
    have hrest := ih fun t ht => hx t (List.mem_cons_of_mem _ ht)
    cases xs with
    | nil => simpa using hs
    | cons t xs =>
      rw [String.intercalate_cons_of_ne_nil (by simp), String.toList_append, String.toList_append, List.mem_append, List.mem_append]
      rintro ((h | h) | h)
      · exact hs h
      · simp at h
      · exact hrest h

/-- Tables with the same fingerprint have the same columns and the same rows. -/
theorem CollisionFree.same {ctx : LakeCtx} {contents : Set TableContent} {files : Set Bytes} (h : CollisionFree ctx contents files)
    {c c' : TableContent} (hc : c ∈ contents) (hc' : c' ∈ contents) (heq : fingerprint ctx c = fingerprint ctx c') : c.Same c' := by
  have hdigests {xs : List String} : ∀ s ∈ xs.map ctx.sha256Hex, IsDigest s := by
    intro s hs
    obtain ⟨t, -, rfl⟩ := List.mem_map.mp hs
    exact h.digest t
  have hsorted {xs : List String} : ∀ s ∈ (xs.map ctx.sha256Hex).insertionSort (· ≤ ·), IsDigest s := by
    intro s hs
    exact hdigests s ((List.perm_insertionSort _ _).mem_iff.mp hs)
  have htext : fingerprintText ctx c = fingerprintText ctx c' :=
    h.texts ⟨c, hc, .inr (.inr rfl)⟩ ⟨c', hc', .inr (.inr rfl)⟩ heq
  have hlist := congrArg String.toList htext
  simp only [fingerprintText, String.toList_append, List.append_assoc] at hlist
  obtain ⟨hcolumns, hrows⟩ := eq_of_append_sep (colon_not_mem_intercalate hdigests) (colon_not_mem_intercalate hdigests) hlist
  -- a left inverse of the digest on the texts at hand takes the digests back
  have hinv := h.texts.leftInvOn_invFunOn
  have hback {xs : List String} {d : TableContent} (hd : d ∈ contents) (hxs : ∀ s ∈ xs, s ∈ d.hashed ctx) :
      (xs.map ctx.sha256Hex).map (Function.invFunOn ctx.sha256Hex {s | ∃ c ∈ contents, s ∈ c.hashed ctx}) = xs := by
    rw [List.map_map]
    exact (List.map_congr_left fun s hs => hinv ⟨d, hd, hxs s hs⟩).trans (List.map_id xs)
  constructor
  · have hmap := intercalate_digests_inj hdigests hdigests (String.toList_inj.mp hcolumns)
    rw [← hback hc fun s hs => .inl hs, hmap, hback hc' fun s hs => .inl hs]
  · have hmap := intercalate_digests_inj hsorted hsorted (String.toList_inj.mp hrows)
    have hperm : (c.rows.map ctx.sha256Hex).Perm (c'.rows.map ctx.sha256Hex) :=
      (List.perm_insertionSort (· ≤ ·) _).symm.trans (hmap ▸ List.perm_insertionSort (· ≤ ·) _)
    have hrows := hperm.map (Function.invFunOn ctx.sha256Hex {s | ∃ c ∈ contents, s ∈ c.hashed ctx})
    rwa [hback hc fun s hs => .inr (.inl hs), hback hc' fun s hs => .inr (.inl hs)] at hrows

/-! ## What a directory serves -/

section Serving

variable {ctx : LakeCtx} {fs : LakeFs} {table path : String}

/-- A table is served when the manifest names its file as an export does, and the file has the checksum that was recorded. -/
theorem committedFile_ok_iff : committedFile ctx fs table = .ok path ↔
    ∃ m fp bytes, fs.manifest = some m ∧ m.formatVersion = 2 ∧ table ∈ tables ∧ IsDigest fp ∧
      m.snapshots.get? table = some path ∧ m.fingerprints.get? table = some fp ∧ path = snapshotPath table fp ∧
      fs.files path = some bytes ∧ m.fileChecksums.get? table = some (ctx.checksum bytes) := by
  unfold committedFile IsDigest
  cases hmanifest : fs.manifest with
  | none => simp
  | some m =>
    simp only [Option.getD_some]
    by_cases hversion : m.formatVersion = 2
    · rw [if_neg (not_not.mpr hversion)]
      cases hsnapshot : m.snapshots.get? table with
      | none => simp [hsnapshot]
      | some relative =>
        cases hfp : m.fingerprints.get? table with
        | none => simp [hfp]
        | some fp =>
          dsimp only
          split_ifs with hbad
          · constructor
            · simp
            · rintro ⟨m', fp', bytes, hm, -, htable, hdigest, hpath, hfp', rfl, -, -⟩
              obtain rfl := Option.some.inj hm
              obtain rfl := Option.some.inj (hfp.symm.trans hfp')
              obtain rfl := Option.some.inj (hsnapshot.symm.trans hpath)
              simp [htable, hdigest.1] at hbad
              exact absurd hdigest.2 (by simpa using hbad)
          · push Not at hbad
            obtain ⟨htable, hsize, hhex, hrelative⟩ := hbad
            cases hfile : fs.files relative with
            | none =>
              constructor
              · simp
              · rintro ⟨m', fp', bytes, hm, -, -, -, hpath, -, -, hbytes, -⟩
                obtain rfl := Option.some.inj hm
                obtain rfl := Option.some.inj (hsnapshot.symm.trans hpath)
                rw [hfile] at hbytes
                cases hbytes
            | some bytes =>
              cases hchecksum : m.fileChecksums.get? table with
              | none =>
                constructor
                · simp
                · rintro ⟨m', fp', bytes', hm, -, -, -, -, -, -, -, hexpected⟩
                  obtain rfl := Option.some.inj hm
                  rw [hchecksum] at hexpected
                  cases hexpected
              | some expected =>
                dsimp only
                split_ifs with hsum
                · constructor
                  · simp
                  · rintro ⟨m', fp', bytes', hm, -, -, -, hpath, -, -, hbytes, hexpected⟩
                    obtain rfl := Option.some.inj hm
                    obtain rfl := Option.some.inj (hsnapshot.symm.trans hpath)
                    obtain rfl := Option.some.inj (hfile.symm.trans hbytes)
                    exact absurd (Option.some.inj (hchecksum.symm.trans hexpected)).symm hsum
                · constructor
                  · intro h
                    obtain rfl := Except.ok.inj h
                    refine ⟨m, fp, bytes, rfl, hversion, htable, ⟨hsize, by simpa using hhex⟩, hsnapshot, hfp, hrelative, hfile, ?_⟩
                    rw [hchecksum, ← not_not.mp hsum]
                  · rintro ⟨m', fp', bytes', hm, -, -, -, hpath, -⟩
                    obtain rfl := Option.some.inj hm
                    rw [Option.some.inj (hsnapshot.symm.trans hpath)]
    · rw [if_pos hversion]
      constructor
      · simp
      · rintro ⟨m', -, -, hm, hversion', -⟩
        obtain rfl := Option.some.inj hm
        exact absurd hversion' hversion

end Serving

/-! ## What an export keeps -/

section Contracts

variable {Γ : Env} {ctx : LakeCtx} {db : Snapshot} {contents : Set TableContent} {known : Set Bytes} {fs₀ fs : LakeFs}

/-- What is known of the files that exports write. -/
structure Writes (ctx : LakeCtx) (contents : Set TableContent) (known : Set Bytes) : Prop where
  copy : ∀ c ∈ contents, ∀ n, ctx.copy n c ∈ known
  partialCopy : ∀ n, ctx.partialCopy n ∈ known

/-- Every entry of a published manifest was recorded for a file that a `COPY` wrote, and every file is one of those known. -/
structure Faithful (ctx : LakeCtx) (contents : Set TableContent) (known : Set Bytes) (fs : LakeFs) : Prop where
  entry : ∀ m, fs.manifest = some m → m.formatVersion = 2 → ∀ table ∈ tables, ∀ path digest, m.snapshots.get? table = some path →
    m.fileChecksums.get? table = some digest →
      ∃ c ∈ contents, ∃ n, path = snapshotPath table (fingerprint ctx c) ∧ digest = ctx.checksum (ctx.copy n c)
  known : ∀ path bytes, fs.files path = some bytes → bytes ∈ known

/-- The manifest and the files that are served are those of before. -/
structure Untouched (ctx : LakeCtx) (known : Set Bytes) (fs₀ fs : LakeFs) : Prop where
  manifest : fs.manifest = fs₀.manifest
  files : ∀ table path, committedFile ctx fs₀ table = .ok path → fs.files path = fs₀.files path
  known : ∀ path bytes, fs.files path = some bytes → bytes ∈ known

/-- A manifest's entries for a table, and the file they name, which holds the rows of the snapshot. -/
def Recorded (ctx : LakeCtx) (db : Snapshot) (contents : Set TableContent) (m : LakeMeta) (fs : LakeFs) (table : String) : Prop :=
  ∃ c ∈ contents, ∃ n, c.Same (db table) ∧ fingerprint ctx c = fingerprint ctx (db table) ∧
    m.snapshots.get? table = some (snapshotPath table (fingerprint ctx (db table))) ∧
    m.fingerprints.get? table = some (fingerprint ctx (db table)) ∧
    m.fileChecksums.get? table = some (ctx.checksum (ctx.copy n c)) ∧
    fs.files (snapshotPath table (fingerprint ctx (db table))) = some (ctx.copy n c)

/-- The manifest of an export of the snapshot is in place. -/
def Published (ctx : LakeCtx) (db : Snapshot) (contents : Set TableContent) (known : Set Bytes) (fs : LakeFs) : Prop :=
  (∃ m, fs.manifest = some m ∧ m.formatVersion = 2 ∧ ∀ table ∈ tables, Recorded ctx db contents m fs table) ∧
    ∀ path bytes, fs.files path = some bytes → bytes ∈ known

/-- Before the manifest is renamed: nothing is touched, and the tables that are done are recorded. -/
structure Midway (ctx : LakeCtx) (db : Snapshot) (contents : Set TableContent) (known : Set Bytes) (fs₀ : LakeFs) (m : LakeMeta)
    (done : List String) (fs : LakeFs) : Prop extends Untouched ctx known fs₀ fs where
  recorded : ∀ table ∈ done, Recorded ctx db contents m fs table

/-- A name that neither a served file nor the file of a table that is done has. -/
def Free (ctx : LakeCtx) (db : Snapshot) (fs₀ : LakeFs) (done : List String) (path : String) : Prop :=
  (∀ table, committedFile ctx fs₀ table ≠ .ok path) ∧ ∀ table ∈ done, snapshotPath table (fingerprint ctx (db table)) ≠ path

variable {m : LakeMeta} {done : List String} {path : String}

/-- A temporary file is nobody's. -/
theorem free_tempPath (path : String) : Free ctx db fs₀ done (tempPath path) := by
  refine ⟨fun table h => ?_, fun table _ => snapshotPath_ne_tempPath _ _ _⟩
  obtain ⟨_, fp, _, -, -, -, -, -, -, hpath, -⟩ := committedFile_ok_iff.mp h
  exact snapshotPath_ne_tempPath _ _ _ hpath.symm

theorem Midway.setFile (h : Midway ctx db contents known fs₀ m done fs) (hfree : Free ctx db fs₀ done path) {bytes : Option Bytes}
    (hbytes : ∀ b, bytes = some b → b ∈ known) : Midway ctx db contents known fs₀ m done (fs.setFile path bytes) where
  manifest := h.manifest
  files table path' hserved := by
    have hne : path' ≠ path := fun heq => hfree.1 table (heq ▸ hserved)
    rw [setFile_files_of_ne fs bytes hne]
    exact h.files table path' hserved
  known path' b hb := by
    by_cases hp : path' = path
    · rw [hp, setFile_files_same] at hb
      exact hbytes b hb
    · rw [setFile_files_of_ne fs bytes hp] at hb
      exact h.known path' b hb
  recorded table htable := by
    obtain ⟨c, hc, n, hsame, hfp, hsnapshot, hfps, hsum, hfile⟩ := h.recorded table htable
    refine ⟨c, hc, n, hsame, hfp, hsnapshot, hfps, hsum, ?_⟩
    rw [setFile_files_of_ne fs bytes (hfree.2 table htable)]
    exact hfile

theorem fileOp_meets {P Q E : LakeFs → Prop} {f : LakeFs → Option LakeFs} (hE : ∀ fs, P fs → E fs)
    (h : ∀ fs fs', P fs → f fs = some fs' → Q fs') :
    Meets (fun s : Db.Session LakeFs => P s.store) (fileOp Γ f) (fun _ s => Q s.store) (fun s => E s.store) :=
  Meets.execute (Q := fun _ s => Q s.store) (fun s hs => hE s.store hs) fun s st hs hst => h s.store st hs hst

/-- An operation that leaves the files keeps what is known of them. -/
theorem pass_meets {P : LakeFs → Prop} {E : LakeFs → Prop} (hE : ∀ fs, P fs → E fs) :
    Meets (fun s : Db.Session LakeFs => P s.store) (pass Γ) (fun _ s => P s.store) (fun s => E s.store) :=
  fileOp_meets hE fun _ _ hfs h => Option.some.inj h ▸ hfs

theorem observe_meets {P E : LakeFs → Prop} {Q : LakeFs → Prop} {f : Nat → Tx StoreError LakeFs Unit}
    (h : ∀ n, Meets (fun s : Db.Session LakeFs => P s.store) (f n) (fun _ s => Q s.store) (fun s => E s.store)) :
    Meets (fun s : Db.Session LakeFs => P s.store) (Db.observe id >>= f) (fun _ s => Q s.store) (fun s => E s.store) :=
  Meets.bind (Q := fun _ s => P s.store) (Meets.observe fun _ hs => hs) h

/-- Writing a table's file touches nothing that is served or done, and leaves what a `COPY` wrote. -/
theorem writeTable_meets (hw : Writes ctx contents known) {content : TableContent} (hcontent : content ∈ contents)
    (hfree : Free ctx db fs₀ done path) :
    Meets (fun s => Midway ctx db contents known fs₀ m done s.store) (writeTable Γ ctx content path)
      (fun _ s => Midway ctx db contents known fs₀ m done s.store ∧ ∃ n, s.store.files path = some (ctx.copy n content))
      (fun s => Untouched ctx known fs₀ s.store) := by
  have htemp : Free ctx db fs₀ done (tempPath path) := free_tempPath path
  let J := Midway ctx db contents known fs₀ m done
  let E := Untouched ctx known fs₀
  have hE : ∀ fs, J fs → E fs := fun _ h => h.toUntouched
  let K := fun fs : LakeFs => J fs ∧ ∃ n, fs.files (tempPath path) = some (ctx.copy n content)
  let F := fun fs : LakeFs => J fs ∧ ∃ n, fs.files path = some (ctx.copy n content)
  have hsome (n : Nat) : Meets (fun s : Db.Session LakeFs => J s.store)
      (fileOp Γ fun fs => some (fs.setFile (tempPath path) (some (ctx.partialCopy n)))) (fun _ s => J s.store) (fun s => E s.store) := by
    refine fileOp_meets hE fun fs fs' hfs h => ?_
    obtain rfl := Option.some.inj h
    exact Midway.setFile hfs htemp fun b hb => Option.some.inj hb ▸ hw.partialCopy n
  have hcopy (n : Nat) : Meets (fun s : Db.Session LakeFs => J s.store)
      (fileOp Γ fun fs => some (fs.setFile (tempPath path) (some (ctx.copy n content)))) (fun _ s => K s.store)
      (fun s => E s.store) := by
    refine fileOp_meets hE fun fs fs' hfs h => ?_
    obtain rfl := Option.some.inj h
    exact ⟨Midway.setFile hfs htemp fun b hb => Option.some.inj hb ▸ hw.copy content hcontent n, n, by simp⟩
  have hremove : Meets (fun s : Db.Session LakeFs => J s.store) (fileOp Γ fun fs => some (fs.setFile (tempPath path) none))
      (fun _ s => J s.store) (fun s => E s.store) := by
    refine fileOp_meets hE fun fs fs' hfs h => ?_
    obtain rfl := Option.some.inj h
    exact Midway.setFile hfs htemp fun _ hb => nomatch hb
  have hrename : Meets (fun s : Db.Session LakeFs => K s.store) (fileOp Γ fun fs => (fs.files (tempPath path)).map fun bytes =>
      (fs.setFile (tempPath path) none).setFile path (some bytes)) (fun _ s => F s.store) (fun s => E s.store) := by
    refine fileOp_meets (fun fs h => hE fs h.1) fun fs fs' hfs h => ?_
    obtain ⟨hmid, n, hn⟩ := hfs
    rw [hn] at h
    obtain rfl := Option.some.inj h
    have hgone : J (fs.setFile (tempPath path) none) := Midway.setFile hmid htemp fun _ hb => nomatch hb
    exact ⟨hgone.setFile hfree fun b hb => Option.some.inj hb ▸ hw.copy content hcontent n, n, by simp⟩
  refine Meets.bind (pass_meets hE) fun _ => Meets.bind hremove fun _ => ?_
  refine observe_meets (P := J) (Q := F) (E := E) fun started => Meets.bind (hsome started) fun _ => ?_
  refine observe_meets (P := J) (Q := F) (E := E) fun finished => Meets.bind (hcopy finished) fun _ => ?_
  refine Meets.bind (pass_meets fun fs h => hE fs h.1) fun _ => Meets.bind hrename fun _ => ?_
  exact pass_meets fun fs h => hE fs h.1

/-- A file that is not used again is not served. -/
theorem free_of_changed {table fp : String} (htable : table ∈ tables) (hdone : ∀ t ∈ done, t ∈ tables) (hnew : table ∉ done)
    (h : Untouched ctx known fs₀ fs) (hchanged : unchangedSince (fs₀.manifest.getD {}) table (snapshotPath table fp)
      ((fs.files (snapshotPath table fp)).map ctx.checksum) = false) : Free ctx db fs₀ done (snapshotPath table fp) := by
  constructor
  · intro t hserved
    have hsame := h.files t _ hserved
    obtain ⟨m, fp', bytes, hm, hversion, ht, -, hsnapshot, -, hpath, hfile, hsum⟩ := committedFile_ok_iff.mp hserved
    obtain ⟨rfl, -⟩ := snapshotPath_inj htable ht hpath
    have hused : unchangedSince (fs₀.manifest.getD {}) table (snapshotPath table fp)
        ((fs.files (snapshotPath table fp)).map ctx.checksum) = true := by
      rw [hsame, hfile, hm]
      simp [unchangedSince, hversion, hsnapshot, hsum]
    rw [hchanged] at hused
    cases hused
  · intro t ht heq
    exact hnew ((snapshotPath_inj htable (hdone t ht) heq.symm).1 ▸ ht)

/-- The manifest with a table's entries still has those of the tables before. -/
theorem Recorded.record {table fp digest : String} {published : Int} {t : String} (h : Recorded ctx db contents m fs t)
    (hne : t ≠ table) : Recorded ctx db contents (m.record table fp digest published) fs t := by
  obtain ⟨c, hc, n, hsame, hfp, hsnapshot, hfps, hsum, hfile⟩ := h
  refine ⟨c, hc, n, hsame, hfp, ?_, ?_, ?_, hfile⟩ <;> simp [LakeMeta.record, OrdMap.get?_alter, hne, hsnapshot, hfps, hsum]

theorem recorded_record {table digest : String} {published : Int} {c : TableContent} {n : Nat} (hc : c ∈ contents)
    (hsame : c.Same (db table)) (hfp : fingerprint ctx c = fingerprint ctx (db table)) (hdigest : digest = ctx.checksum (ctx.copy n c))
    (hfile : fs.files (snapshotPath table (fingerprint ctx (db table))) = some (ctx.copy n c)) :
    Recorded ctx db contents (m.record table (fingerprint ctx (db table)) digest published) fs table := by
  refine ⟨c, hc, n, hsame, hfp, ?_, ?_, ?_, hfile⟩ <;> simp [LakeMeta.record, OrdMap.get?_alter, hdigest]

theorem Midway.record {table fp digest : String} {published : Int} (h : Midway ctx db contents known fs₀ m done fs)
    (hnew : table ∉ done) (hrecorded : Recorded ctx db contents (m.record table fp digest published) fs table) :
    Midway ctx db contents known fs₀ (m.record table fp digest published) (done ++ [table]) fs where
  toUntouched := h.toUntouched
  recorded t ht := by
    rcases List.mem_append.mp ht with ht | ht
    · exact (h.recorded t ht).record fun heq => hnew (heq ▸ ht)
    · rw [List.mem_singleton.mp ht]
      exact hrecorded

/-- A file that is used again holds what a `COPY` of the same rows wrote. -/
theorem reused (hcf : CollisionFree ctx contents known) (hw : Writes ctx contents known) (hdb : ∀ t ∈ tables, db t ∈ contents)
    (hfaithful : Faithful ctx contents known fs₀) (h : Untouched ctx known fs₀ fs) {table : String} (htable : table ∈ tables)
    {existing : Option String} (hexisting : existing = (fs.files (snapshotPath table (fingerprint ctx (db table)))).map ctx.checksum)
    (hunchanged : unchangedSince (fs₀.manifest.getD {}) table (snapshotPath table (fingerprint ctx (db table))) existing = true) :
    ∃ c ∈ contents, ∃ n, c.Same (db table) ∧ fingerprint ctx c = fingerprint ctx (db table) ∧
      existing.getD "" = ctx.checksum (ctx.copy n c) ∧
      fs.files (snapshotPath table (fingerprint ctx (db table))) = some (ctx.copy n c) := by
  simp only [unchangedSince, Bool.and_eq_true, beq_iff_eq] at hunchanged
  obtain ⟨⟨⟨hversion, hsnapshot⟩, hsome⟩, hsum⟩ := hunchanged
  cases hm : fs₀.manifest with
  | none =>
    rw [hm] at hversion
    cases hversion
  | some m =>
    rw [hm, Option.getD_some] at hversion hsnapshot hsum
    cases hfile : fs.files (snapshotPath table (fingerprint ctx (db table))) with
    | none => simp [hexisting, hfile] at hsome
    | some bytes =>
      rw [hfile] at hexisting
      obtain ⟨c, hc, n, hpath, hdigest⟩ := hfaithful.entry m hm hversion table htable _ _ hsnapshot (hsum.trans hexisting)
      have hfp := (snapshotPath_inj htable htable hpath).2.symm
      have hbytes : bytes = ctx.copy n c := hcf.files (h.known _ _ hfile) (hw.copy c hc n) hdigest
      exact ⟨c, hc, n, hcf.same hc (hdb table htable) hfp, hfp, by rw [hexisting, Option.map_some, Option.getD_some, hdigest],
        by rw [hbytes]⟩

theorem checksumOf_meets {P E : LakeFs → Prop} (hE : ∀ fs, P fs → E fs) :
    Meets (fun s : Db.Session LakeFs => P s.store) (checksumOf Γ ctx path)
      (fun digest s => P s.store ∧ (s.store.files path).map ctx.checksum = some digest) (fun s => E s.store) := by
  refine Meets.bind (Q := fun found s => P s.store ∧ (s.store.files path).map ctx.checksum = found)
    (Meets.query (fun s hs => hE s.store hs) fun s hs => ⟨hs, rfl⟩) fun found => ?_
  cases found with
  | none => exact Meets.throw fun s hs => hE s.store hs.1
  | some digest => exact Meets.pure fun s hs => hs

/-- Exporting one table records it, whether its file is used again or written. -/
theorem exportTable_meets (hcf : CollisionFree ctx contents known) (hw : Writes ctx contents known)
    (hdb : ∀ t ∈ tables, db t ∈ contents) (hfaithful : Faithful ctx contents known fs₀) (runNs : Int) {table : String}
    (htable : table ∈ tables) (hdone : ∀ t ∈ done, t ∈ tables) (hnew : table ∉ done) (acc : LakeMeta × List TableExport) :
    Meets (fun s => Midway ctx db contents known fs₀ acc.1 done s.store)
      (exportTable Γ ctx db (fs₀.manifest.getD {}) runNs table acc)
      (fun acc' s => acc'.1.formatVersion = acc.1.formatVersion ∧ Midway ctx db contents known fs₀ acc'.1 (done ++ [table]) s.store)
      (fun s => Untouched ctx known fs₀ s.store) := by
  let fp := fingerprint ctx (db table)
  let path := snapshotPath table fp
  have hE : ∀ s : Db.Session LakeFs, Midway ctx db contents known fs₀ acc.1 done s.store → Untouched ctx known fs₀ s.next.store :=
    fun s hs => hs.toUntouched
  refine Meets.bind (Q := fun fp' s => fp' = fp ∧ Midway ctx db contents known fs₀ acc.1 done s.store)
    (Meets.query hE fun s hs => ⟨rfl, hs⟩) fun fp' => ?_
  refine Meets.given (φ := fp' = fp) (P := fun s => Midway ctx db contents known fs₀ acc.1 done s.store) (fun s hs => hs) fun hfp' => ?_
  subst hfp'
  refine Meets.bind (Q := fun existing s => Midway ctx db contents known fs₀ acc.1 done s.store ∧
    existing = (s.store.files path).map ctx.checksum) (Meets.query hE fun s hs => ⟨hs, rfl⟩) fun existing => ?_
  refine Meets.bind (Q := fun _ s => Midway ctx db contents known fs₀ acc.1 done s.store ∧
    existing = (s.store.files path).map ctx.checksum) (Meets.query (fun s hs => hE s hs.1) fun s hs => hs) fun rows => ?_
  dsimp only
  split
  · next hunchanged =>
    refine Meets.pure fun s hs => ⟨rfl, ?_⟩
    obtain ⟨c, hc, n, hsame, hfp, hdigest, hfile⟩ := reused hcf hw hdb hfaithful hs.1.toUntouched htable hs.2 hunchanged
    exact hs.1.record hnew (recorded_record hc hsame hfp hdigest hfile)
  · next hchanged =>
    refine Meets.given (φ := Free ctx db fs₀ done path) (P := fun s => Midway ctx db contents known fs₀ acc.1 done s.store)
      (fun s hs => ⟨free_of_changed htable hdone hnew hs.1.toUntouched (by simpa [hs.2] using hchanged), hs.1⟩) fun hfree => ?_
    refine Meets.bind (writeTable_meets hw (hdb table htable) hfree) fun _ => ?_
    refine Meets.bind (checksumOf_meets (E := Untouched ctx known fs₀) (P := fun fs => Midway ctx db contents known fs₀ acc.1 done fs ∧
      ∃ n, fs.files path = some (ctx.copy n (db table))) fun fs h => h.1.toUntouched) fun digest => Meets.pure fun s hs => ⟨rfl, ?_⟩
    obtain ⟨⟨hmid, n, hfile⟩, hdigest⟩ := hs
    rw [hfile] at hdigest
    exact hmid.record hnew
      (recorded_record (hdb table htable) ⟨rfl, .refl _⟩ rfl (Option.some.inj hdigest).symm hfile)

/-- Exporting tables records each of them (induction on the tables that are left). -/
theorem exportTables_meets (hcf : CollisionFree ctx contents known) (hw : Writes ctx contents known)
    (hdb : ∀ t ∈ tables, db t ∈ contents) (hfaithful : Faithful ctx contents known fs₀) (runNs : Int) (rest done : List String)
    (hsub : ∀ t ∈ done ++ rest, t ∈ tables) (hnodup : (done ++ rest).Nodup) (acc : LakeMeta × List TableExport) :
    Meets (fun s => Midway ctx db contents known fs₀ acc.1 done s.store)
      (exportTables Γ ctx db (fs₀.manifest.getD {}) runNs rest acc)
      (fun acc' s => acc'.1.formatVersion = acc.1.formatVersion ∧ Midway ctx db contents known fs₀ acc'.1 (done ++ rest) s.store)
      (fun s => Untouched ctx known fs₀ s.store) := by
  induction rest generalizing done acc with
  | nil => exact Meets.pure fun s hs => ⟨rfl, by rwa [List.append_nil]⟩
  | cons table rest ih =>
    have htable : table ∈ tables := hsub table (by simp)
    have hnew : table ∉ done := fun hmem => (List.nodup_append.mp hnodup).2.2 table hmem table List.mem_cons_self rfl
    refine Meets.bind (exportTable_meets hcf hw hdb hfaithful runNs htable (fun t ht => hsub t (by simp [ht])) hnew acc)
      fun acc' => ?_
    refine Meets.given (φ := acc'.1.formatVersion = acc.1.formatVersion)
      (P := fun s => Midway ctx db contents known fs₀ acc'.1 (done ++ [table]) s.store) (fun s hs => hs) fun hversion => ?_
    have hassoc : done ++ [table] ++ rest = done ++ table :: rest := by simp
    have hrest := ih (done ++ [table]) (by rwa [hassoc]) (by rwa [hassoc]) acc'
    rw [hassoc, hversion] at hrest
    exact hrest

/-- Until the manifest is renamed nothing is touched; from then on the new one is in place. -/
theorem writeMeta_meets {manifest : LakeMeta} (hversion : manifest.formatVersion = 2) :
    Meets (fun s => Midway ctx db contents known fs₀ manifest tables s.store) (writeMeta Γ manifest)
      (fun _ s => Published ctx db contents known s.store)
      (fun s => Untouched ctx known fs₀ s.store ∨ Published ctx db contents known s.store) := by
  let J := Midway ctx db contents known fs₀ manifest tables
  let E := fun fs => Untouched ctx known fs₀ fs ∨ Published ctx db contents known fs
  let K := fun fs : LakeFs => J fs ∧ fs.manifestTmp = some (some manifest)
  have hE : ∀ fs, J fs → E fs := fun fs h => .inl h.toUntouched
  have htmp (fs : LakeFs) (tmp : Option (Option LakeMeta)) (h : J fs) : J { fs with manifestTmp := tmp } :=
    ⟨⟨h.manifest, h.files, h.known⟩, h.recorded⟩
  refine Meets.bind (fileOp_meets (P := J) (Q := J) (E := E) hE fun fs fs' hfs h => Option.some.inj h ▸ htmp fs _ hfs) fun _ => ?_
  refine Meets.bind (fileOp_meets (P := J) (Q := J) (E := E) hE fun fs fs' hfs h => Option.some.inj h ▸ htmp fs _ hfs) fun _ => ?_
  refine Meets.bind (fileOp_meets (P := J) (Q := K) (E := E) hE fun fs fs' hfs h => ?_) fun _ => ?_
  · obtain rfl := Option.some.inj h
    exact ⟨htmp fs _ hfs, rfl⟩
  refine Meets.bind (pass_meets (P := K) (E := E) fun fs h => hE fs h.1) fun _ => ?_
  refine Meets.bind (fileOp_meets (P := K) (Q := Published ctx db contents known) (E := E) (fun fs h => hE fs h.1)
    fun fs fs' hfs h => ?_) fun _ => pass_meets (E := E) fun fs h => .inr h
  rw [hfs.2] at h
  obtain rfl := Option.some.inj h
  exact ⟨⟨manifest, rfl, hversion, hfs.1.recorded⟩, hfs.1.known⟩

/-- An export that succeeds publishes its snapshot, and one that fails or crashes leaves what was served or has published too. -/
theorem lakeExport_meets (hcf : CollisionFree ctx contents known) (hw : Writes ctx contents known)
    (hdb : ∀ t ∈ tables, db t ∈ contents) (hfaithful : Faithful ctx contents known fs₀) :
    Meets (fun s => s.store = fs₀) (lakeExport Γ ctx db) (fun _ s => Published ctx db contents known s.store)
      (fun s => Untouched ctx known fs₀ s.store ∨ Published ctx db contents known s.store) := by
  let I := fun fs : LakeFs => fs = fs₀
  let E := fun fs => Untouched ctx known fs₀ fs ∨ Published ctx db contents known fs
  have huntouched : Untouched ctx known fs₀ fs₀ := ⟨rfl, fun _ _ _ => rfl, hfaithful.known⟩
  have hE : ∀ fs, I fs → E fs := fun fs hfs => .inl (show Untouched ctx known fs₀ fs from hfs.symm ▸ huntouched)
  have hpass : Meets (fun s : Db.Session LakeFs => I s.store) (pass Γ) (fun _ s => I s.store) (fun s => E s.store) := pass_meets hE
  refine Meets.bind hpass fun _ => Meets.bind hpass fun _ => Meets.bind hpass fun _ => Meets.bind hpass fun _ => ?_
  refine Meets.bind (Q := fun previous s => previous = fs₀.manifest.getD {} ∧ I s.store)
    (Meets.query (fun s hs => hE s.store hs) fun s hs => ⟨by rw [hs], hs⟩) fun previous => ?_
  refine Meets.given (φ := previous = fs₀.manifest.getD {}) (P := fun s => I s.store) (fun s hs => hs) fun hprevious => ?_
  subst hprevious
  split
  · exact Meets.throw fun s hs => hE s.store hs
  · split
    · exact Meets.throw fun s hs => hE s.store hs
    · refine Meets.bind (Q := fun _ s => I s.store) (Meets.now fun s hs => hs) fun runNs => Meets.bind hpass fun _ => ?_
      have hstart (m : LakeMeta) : ∀ s : Db.Session LakeFs, I s.store → Midway ctx db contents known fs₀ m [] s.store := by
        intro s hs
        exact ⟨show Untouched ctx known fs₀ s.store from hs.symm ▸ huntouched, fun t ht => nomatch ht⟩
      have htables := ((exportTables_meets (Γ := Γ) hcf hw hdb hfaithful runNs tables [] (fun t ht => ht) (by decide)
        ({ formatVersion := 2, excludedTables := excluded }, [])).exit fun s hs => show E s.store from .inl hs).weaken (hstart _) fun _ _ h => h
      refine Meets.bind htables fun acc => ?_
      refine Meets.given (φ := acc.1.formatVersion = 2) (P := fun s => Midway ctx db contents known fs₀ acc.1 tables s.store)
        (fun s hs => hs) fun hversion => ?_
      refine Meets.bind (pass_meets (E := E) fun fs h => .inl h.toUntouched) fun _ => ?_
      have hlast (s : Db.Session LakeFs) (hs : Midway ctx db contents known fs₀ acc.1 tables s.store) :
          Midway ctx db contents known fs₀ { acc.1 with lastExportNs := some runNs } tables s.store := ⟨hs.toUntouched, hs.recorded⟩
      have hmeta : Meets (fun s => Midway ctx db contents known fs₀ { acc.1 with lastExportNs := some runNs } tables s.store)
          (writeMeta Γ { acc.1 with lastExportNs := some runNs }) (fun _ s => Published ctx db contents known s.store)
          (fun s => Untouched ctx known fs₀ s.store ∨ Published ctx db contents known s.store) := writeMeta_meets hversion
      exact Meets.bind (hmeta.weaken hlast fun _ _ h => h) fun _ => Meets.pure fun s hs => hs

theorem Untouched.faithful (h : Untouched ctx known fs₀ fs) (h₀ : Faithful ctx contents known fs₀) : Faithful ctx contents known fs :=
  ⟨fun m hm => h₀.entry m (h.manifest ▸ hm), h.known⟩

theorem Published.faithful (h : Published ctx db contents known fs) : Faithful ctx contents known fs := by
  obtain ⟨⟨m, hm, -, hrecorded⟩, hknown⟩ := h
  refine ⟨fun m' hm' _ table htable path digest hpath hdigest => ?_, hknown⟩
  obtain rfl := Option.some.inj (hm.symm.trans hm')
  obtain ⟨c, hc, n, -, hfp, hsnapshot, -, hsum, -⟩ := hrecorded table htable
  exact ⟨c, hc, n, by rw [hfp]; exact Option.some.inj (hpath.symm.trans hsnapshot), Option.some.inj (hdigest.symm.trans hsum)⟩

end Contracts

/-! ## Histories -/

/-- What the tables hold in a history. -/
def contentsOf (db : Snapshot) (ops : List LakeOp) : Set TableContent :=
  {c | ∃ table ∈ tables, c = db table ∨ ∃ db', .mutate db' ∈ ops ∧ c = db' table}

/-- The files that appear in a history: whole and partial copies, and what damage left. -/
def filesOf (ctx : LakeCtx) (db : Snapshot) (ops : List LakeOp) : Set Bytes :=
  {b | (∃ c ∈ contentsOf db ops, ∃ n, b = ctx.copy n c) ∨ (∃ n, b = ctx.partialCopy n) ∨ ∃ path, .damage path (some b) ∈ ops}

/-- A table that was served is served: the same file with the same bytes, or, when the manifest was renamed, a file of the snapshot
that was being exported; either way with the checksum that was recorded. -/
def StillServed (ctx : LakeCtx) (db : Snapshot) (fs₀ fs : LakeFs) (table path : String) : Prop :=
  ∃ path' bytes m, committedFile ctx fs table = .ok path' ∧ fs.files path' = some bytes ∧ fs.manifest = some m ∧
    m.fileChecksums.get? table = some (ctx.checksum bytes) ∧
    (fs₀.manifest = some m ∧ path' = path ∧ fs₀.files path = some bytes ∨ WrittenFrom ctx (db table) bytes)

/-- A table is served from a file that a `COPY` of its rows wrote. -/
def ServedFrom (ctx : LakeCtx) (c : TableContent) (fs : LakeFs) (table : String) : Prop :=
  ∃ path bytes, committedFile ctx fs table = .ok path ∧ fs.files path = some bytes ∧ WrittenFrom ctx c bytes

/-- What an export after a history does to what is served, and what is served at all. -/
structure SnapshotsSurvive (Γ : Env) (ctx : LakeCtx) (st : LakeState) : Prop where
  failed : ∀ e s', lakeExport Γ ctx st.db st.session = (.error e, s') → ∀ table path,
    committedFile ctx st.session.store table = .ok path → StillServed ctx st.db st.session.store s'.store table path
  succeeded : ∀ report s', lakeExport Γ ctx st.db st.session = (.ok report, s') → ∀ table ∈ tables,
    ServedFrom ctx (st.db table) s'.store table
  checked : ∀ table path, committedFile ctx st.session.store table = .ok path → ∃ m bytes, st.session.store.manifest = some m ∧
    st.session.store.files path = some bytes ∧ m.fileChecksums.get? table = some (ctx.checksum bytes)

section Histories

variable {Γ : Env} {ctx : LakeCtx} {db : Snapshot} {contents : Set TableContent} {known : Set Bytes} {fs₀ fs : LakeFs}

theorem Recorded.served (hcf : CollisionFree ctx contents known) {m : LakeMeta} {table : String} (hm : fs.manifest = some m)
    (hversion : m.formatVersion = 2) (htable : table ∈ tables) (h : Recorded ctx db contents m fs table) :
    ∃ path bytes, committedFile ctx fs table = .ok path ∧ fs.files path = some bytes ∧
      m.fileChecksums.get? table = some (ctx.checksum bytes) ∧ WrittenFrom ctx (db table) bytes := by
  obtain ⟨c, -, n, hsame, -, hsnapshot, hfp, hsum, hfile⟩ := h
  exact ⟨_, _, committedFile_ok_iff.mpr ⟨m, _, _, hm, hversion, htable, hcf.digest _, hsnapshot, hfp, rfl, hfile, hsum⟩, hfile, hsum,
    c, n, rfl, hsame⟩

theorem Untouched.stillServed (h : Untouched ctx known fs₀ fs) {table path : String}
    (hserved : committedFile ctx fs₀ table = .ok path) : StillServed ctx db fs₀ fs table path := by
  have hfile := h.files table path hserved
  obtain ⟨m, fp, bytes, hm, hversion, htable, hdigest, hsnapshot, hfp, hpath, hbytes, hsum⟩ := committedFile_ok_iff.mp hserved
  have hm' := h.manifest.trans hm
  rw [hbytes] at hfile
  exact ⟨path, bytes, m, committedFile_ok_iff.mpr ⟨m, fp, bytes, hm', hversion, htable, hdigest, hsnapshot, hfp, hpath, hfile, hsum⟩,
    hfile, hm', hsum, .inl ⟨hm, rfl, hbytes⟩⟩

theorem Published.stillServed (hcf : CollisionFree ctx contents known) (h : Published ctx db contents known fs) {table path : String}
    (hserved : committedFile ctx fs₀ table = .ok path) : StillServed ctx db fs₀ fs table path := by
  obtain ⟨⟨m, hm, hversion, hrecorded⟩, -⟩ := h
  obtain ⟨-, -, -, -, -, htable, -⟩ := committedFile_ok_iff.mp hserved
  obtain ⟨path', bytes, hok, hfile, hsum, hwritten⟩ := (hrecorded table htable).served hcf hm hversion htable
  exact ⟨path', bytes, m, hok, hfile, hm, hsum, .inr hwritten⟩

/-- What holds between the operations of a history. -/
structure LakeInv (ctx : LakeCtx) (contents : Set TableContent) (known : Set Bytes) (st : LakeState) : Prop where
  db : ∀ table ∈ tables, st.db table ∈ contents
  faithful : Faithful ctx contents known st.session.store

/-- An operation keeps the invariant. -/
theorem LakeInv.run (hcf : CollisionFree ctx contents known) (hw : Writes ctx contents known) {st : LakeState}
    (h : LakeInv ctx contents known st) {op : LakeOp} (hmutate : ∀ db, op = .mutate db → ∀ table ∈ tables, db table ∈ contents)
    (hdamage : ∀ path b, op = .damage path (some b) → b ∈ known) : LakeInv ctx contents known (op.run Γ ctx st) := by
  cases op with
  | mutate db => exact ⟨hmutate db rfl, h.faithful⟩
  | doExport =>
    refine ⟨h.db, (lakeExport_meets hcf hw h.db h.faithful).leaves (I := fun s => Faithful ctx contents known s.store) rfl
      (fun _ _ hs => hs.faithful) fun s hs => ?_⟩
    rcases hs with hs | hs
    · exact hs.faithful h.faithful
    · exact hs.faithful
  | damage path bytes =>
    refine ⟨h.db, h.faithful.entry, fun path' b hb => ?_⟩
    by_cases hpath : path' = path
    · simp only [LakeOp.run, Db.Session.withStore_store, hpath, setFile_files_same] at hb
      exact hdamage path b (by rw [hb])
    · simp only [LakeOp.run, Db.Session.withStore_store, setFile_files_of_ne _ _ hpath] at hb
      exact h.faithful.known path' b hb

/-- The invariant holds after every history (induction on the operations, from the last). -/
theorem LakeInv.history (hcf : CollisionFree ctx contents known) (hw : Writes ctx contents known)
    (hdb : ∀ table ∈ tables, db table ∈ contents) {ops : List LakeOp}
    (hmutate : ∀ db, .mutate db ∈ ops → ∀ table ∈ tables, db table ∈ contents)
    (hdamage : ∀ path b, .damage path (some b) ∈ ops → b ∈ known) : LakeInv ctx contents known (history Γ ctx db ops) := by
  induction ops using List.reverseRecOn with
  | nil =>
    refine ⟨hdb, ?_, ?_⟩
    · intro m hm
      cases hm
    · intro path b hb
      cases hb
  | append_singleton ops op ih =>
    have hbefore := ih (fun db h => hmutate db (List.mem_append_left _ h)) fun path b h => hdamage path b (List.mem_append_left _ h)
    have hlast : LakeInv ctx contents known (op.run Γ ctx (Lake.history Γ ctx db ops)) :=
      hbefore.run hcf hw (fun db h => hmutate db (by simp [h])) fun path b h => hdamage path b (by simp [h])
    simpa [Lake.history] using hlast

end Histories

/-- After every history of mutations, exports that fail or crash anywhere, and damage to files, an export that fails or crashes
leaves every table that was served served with the bytes recorded, one that succeeds serves every portable table from its snapshot,
and nothing is served whose checksum is not the recorded one. -/
theorem snapshots_survive (Γ : Env) (ctx : LakeCtx) (db : Snapshot) (ops : List LakeOp)
    (hcf : CollisionFree ctx (contentsOf db ops) (filesOf ctx db ops)) : SnapshotsSurvive Γ ctx (history Γ ctx db ops) := by
  have hw : Writes ctx (contentsOf db ops) (filesOf ctx db ops) :=
    ⟨fun c hc n => .inl ⟨c, hc, n, rfl⟩, fun n => .inr (.inl ⟨n, rfl⟩)⟩
  have hinv : LakeInv ctx (contentsOf db ops) (filesOf ctx db ops) (history Γ ctx db ops) :=
    LakeInv.history hcf hw (fun table htable => ⟨table, htable, .inl rfl⟩)
      (fun db' h table htable => ⟨table, htable, .inr ⟨db', h, rfl⟩⟩) fun path b h => .inr (.inr ⟨path, h⟩)
  have hexport := lakeExport_meets (Γ := Γ) hcf hw hinv.db hinv.faithful (history Γ ctx db ops).session rfl
  refine ⟨fun e s' hrun table path hserved => ?_, fun report s' hrun table htable => ?_, fun table path hserved => ?_⟩
  · rcases hexport.2 e s' hrun with h | h
    · exact h.stillServed hserved
    · exact h.stillServed hcf hserved
  · obtain ⟨⟨m, hm, hversion, hrecorded⟩, -⟩ := hexport.1 report s' hrun
    obtain ⟨path, bytes, hok, hfile, -, hwritten⟩ := (hrecorded table htable).served hcf hm hversion htable
    exact ⟨path, bytes, hok, hfile, hwritten⟩
  · obtain ⟨m, _, bytes, hm, -, -, -, -, -, -, hfile, hsum⟩ := committedFile_ok_iff.mp hserved
    exact ⟨m, bytes, hm, hfile, hsum⟩

/-- The one column of the sample tables. -/
def sampleColumn : String := "\x7b\"column_name\":\"id\",\"data_type\":\"VARCHAR\",\"is_nullable\":\"YES\",\"column_default\":null,\"ordinal_position\":1\x7d"

def sampleColumnDigest : String := "04686cd62680ec4a9d6f7ca19c853fb5c5f7dbc91f9f8e968519e7b2da009ef2"

/-- SHA-256 on the texts of an empty table with that column and on the sample files. -/
def sampleCtx : LakeCtx where
  sha256Hex s := if s = sampleColumn then sampleColumnDigest
    else if s = sampleColumnDigest ++ ":" then "478459417a780c25b3344610b0a298ea7bbaa8010a4017e6d77cc78427608615"
    else "0000000000000000000000000000000000000000000000000000000000000000"
  checksum b := if b = [80, 65, 82, 49] then "fbc62d3b511368ee275ddc74117d8689b430e1427220e25d30816201d89ca7b6"
    else "e3b0c44298fc1c149afbf4c8996fb92427ae41e4649b934ca495991b7852b855"
  copy _ _ := [80, 65, 82, 49]
  partialCopy _ := []

def sampleTable : TableContent := ⟨[sampleColumn], []⟩

theorem snapshots_survive_sample :
    SnapshotsSurvive (Db.crashAt 500) sampleCtx (history (Db.crashAt 500) sampleCtx (fun _ => sampleTable) [.doExport]) := by
  have htext : fingerprintText sampleCtx sampleTable = sampleColumnDigest ++ ":" := by decide
  have hcontents : ∀ c ∈ contentsOf (fun _ => sampleTable) [.doExport], c = sampleTable := by
    rintro c ⟨table, -, rfl | ⟨db', hdb', -⟩⟩
    · rfl
    · simp at hdb'
  refine snapshots_survive _ _ _ _ ⟨fun s => ?_, ?_, ?_⟩
  · simp only [sampleCtx]
    split_ifs <;> exact ⟨by decide, by decide⟩
  · have hin : ∀ s, (∃ c ∈ contentsOf (fun _ => sampleTable) [.doExport], s ∈ c.hashed sampleCtx) →
        s = sampleColumn ∨ s = sampleColumnDigest ++ ":" := by
      rintro s ⟨c, hc, hs⟩
      rw [hcontents c hc] at hs
      rcases hs with hs | hs | hs
      · exact .inl (List.mem_singleton.mp hs)
      · cases hs
      · exact .inr (hs.trans htext)
    have hne : sampleCtx.sha256Hex sampleColumn ≠ sampleCtx.sha256Hex (sampleColumnDigest ++ ":") := by decide
    intro s hs t ht heq
    rcases hin s hs with rfl | rfl <;> rcases hin t ht with rfl | rfl
    · rfl
    · exact absurd heq hne
    · exact absurd heq.symm hne
    · rfl
  · have hin : ∀ b ∈ filesOf sampleCtx (fun _ => sampleTable) [.doExport], b = [80, 65, 82, 49] ∨ b = [] := by
      rintro b (⟨c, -, n, rfl⟩ | ⟨n, rfl⟩ | ⟨path, hb⟩)
      · exact .inl rfl
      · exact .inr rfl
      · simp at hb
    have hne : sampleCtx.checksum [80, 65, 82, 49] ≠ sampleCtx.checksum [] := by decide
    intro b hb d hd heq
    rcases hin b hb with rfl | rfl <;> rcases hin d hd with rfl | rfl
    · rfl
    · exact absurd heq hne
    · exact absurd heq.symm hne
    · rfl

end Tumult.Lake
