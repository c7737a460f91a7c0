import MozartLineage.Storage.FileTree

/-!
# Extraction of the proprietary blobs

`extract` is the script that copies the files of a manifest from a stock tree
into the source tree of the build, and next to that into a cache, which is the
default place to copy from.

A path is the list of its names. An exit status other than zero comes with what
had been copied by then.
-/

namespace MozartLineage.Blobs

open FileTree

/-- An entry of the manifest: where the file goes, the path it is looked up
under, and its hash, which is empty where none is given. -/
structure Entry where
  rel : Path
  sourceRel : Path
  expectedSha1 : String
  deriving DecidableEq

/-- The path below the device directory, for an entry under `@device/`. -/
def Entry.deviceRel (e : Entry) : Option Path :=
  match e.rel with
  | "@device" :: name :: rest => some (name :: rest)
  | _ => none

/-- The path that the entry is cached under. -/
def Entry.cachePath (e : Entry) : Path :=
  match e.deviceRel with
  | some _ => "system" :: e.sourceRel
  | none => "proprietary" :: e.rel

/-- The name of the file that is copied. -/
def Entry.baseName (e : Entry) : String := e.sourceRel.getLastD ""

/-- The checkout and the cache. `device` and `vendor` are the trees below
`device/huawei/mozart` and `vendor/huawei/mozart/proprietary`. -/
structure World (β : Type*) where
  hasRepo : Bool
  hasVendor : Bool
  device : Files β
  vendor : Files β
  cache : Files β

/-- The exit status of a run that stops early, and what it leaves behind. -/
abbrev Result (β : Type*) := Except (ℕ × World β) (World β)

variable {β : Type*}

def exitStatus : Result β → ℕ
  | .ok _ => 0
  | .error r => r.1

def candidates (rel : Path) : List Path :=
  ["proprietary" :: rel, "system" :: rel, rel]

def findBlob (source : Files β) (rel : Path) : Option (Path × β) :=
  (candidates rel).findSome? fun p => (read source p).map fun content => (p, content)

namespace World

/-- The tree and the path that an entry is copied to. -/
def destination (w : World β) (e : Entry) : Files β × Path :=
  match e.deviceRel with
  | some p => (w.device, p)
  | none => (w.vendor, e.rel)

def installDestination (w : World β) (e : Entry) (content : β) : Option (World β) :=
  match e.deviceRel with
  | some p =>
      (install w.device e.baseName p content).map fun t => { w with device := t }
  | none =>
      (install w.vendor e.baseName e.rel content).map fun t => { w with vendor := t }

/-- The copy into the cache. When the source is the cache itself, it is left out
if the file is in its place already; to copy a file over itself is an error. -/
def installCache (w : World β) (fromCache : Bool) (e : Entry) (src : Path)
    (content : β) : Option (World β) :=
  if fromCache ∧ src = e.cachePath then some w
  else if fromCache ∧ src = target w.cache e.baseName e.cachePath then none
  else
    (install w.cache e.baseName e.cachePath content).map fun t =>
      { w with cache := t }

end World

section Extract

variable (sha1sum : β → String) (strict : Bool)

/-- The hash of an entry does not match, and that matters. -/
def HashRejects (e : Entry) (content : β) : Prop :=
  e.expectedSha1 ≠ "" ∧ sha1sum content ≠ e.expectedSha1 ∧ strict = true

instance (e : Entry) (content : β) :
    Decidable (HashRejects sha1sum strict e content) :=
  inferInstanceAs (Decidable (_ ∧ _))

/-- The body of the loop. `source` is the stock tree, or `none` for the cache. -/
def extractEntry (source : Option (Files β)) (w : World β) (e : Entry) : Result β :=
  match findBlob (source.getD w.cache) e.sourceRel with
  | none => .error (3, w)
  | some (src, content) =>
      if HashRejects sha1sum strict e content then .error (4, w)
      else
        match w.installDestination e content with
        | none => .error (1, w)
        | some w =>
            match w.installCache source.isNone e src content with
            | none => .error (1, w)
            | some w => .ok w

/-- The loop over the manifest, up to the first entry that fails. -/
def extractEntries (source : Option (Files β)) : List Entry → World β → Result β
  | [], w => .ok w
  | e :: es, w =>
      match extractEntry sha1sum strict source w e with
      | .error r => .error r
      | .ok w => extractEntries source es w

def extract (source : Option (Files β)) (entries : List Entry) (w : World β) :
    Result β :=
  if ¬ (w.hasRepo ∧ w.hasVendor) then .error (2, w)
  else if ¬ isDir (source.getD w.cache) [] then .error (3, w)
  else extractEntries sha1sum strict source entries w

end Extract

/-- The bytes of the file that an entry stands for. -/
def blob (source : Files β) (e : Entry) : Option β :=
  (findBlob source e.sourceRel).map Prod.snd

theorem blob_eq_findSome? (source : Files β) (e : Entry) :
    blob source e = (candidates e.sourceRel).findSome? (read source) := by
  unfold blob findBlob
  induction candidates e.sourceRel with
  | nil => rfl
  | cons p ps ih =>
      cases h : read source p with
      | none => simpa [h] using ih
      | some content => simp [h]

namespace World

/-- The file of an entry has been copied to where it goes. -/
def Installed (w : World β) (e : Entry) (content : β) : Prop :=
  FileTree.Installed (w.destination e).1 e.baseName (w.destination e).2 content

/-- What is found where the file of an entry goes. -/
def installed (w : World β) (e : Entry) : Option β :=
  read (w.destination e).1
    (target (w.destination e).1 e.baseName (w.destination e).2)

theorem Installed.installed_eq {w : World β} {e : Entry} {content : β}
    (h : w.Installed e content) : w.installed e = some content := h.read

end World

section Steps

variable {sha1sum : β → String} {strict : Bool} {source : Option (Files β)}
  {w w' : World β} {e a : Entry}

theorem extractEntries_cons {es : List Entry} :
    extractEntries sha1sum strict source (e :: es) w = .ok w' ↔
      ∃ w₁, extractEntry sha1sum strict source w e = .ok w₁ ∧
        extractEntries sha1sum strict source es w₁ = .ok w' := by
  simp only [extractEntries]
  cases extractEntry sha1sum strict source w e with
  | error r => simp
  | ok w₁ => simp

/-- An entry that is extracted: its file is found, and copied twice. -/
theorem extractEntry_eq_ok (h : extractEntry sha1sum strict source w e = .ok w') :
    ∃ src content w₁, findBlob (source.getD w.cache) e.sourceRel = some (src, content) ∧
      ¬ HashRejects sha1sum strict e content ∧
      w.installDestination e content = some w₁ ∧
      w₁.installCache source.isNone e src content = some w' := by
  unfold extractEntry at h
  split at h
  · cases h
  · next src content hfind =>
    split_ifs at h with hhash
    split at h
    · cases h
    · next w₁ hdest =>
      split at h
      · cases h
      · next w₂ hcache =>
        cases h
        exact ⟨src, content, w₁, hfind, hhash, hdest, hcache⟩

theorem World.installed_of_installDestination {content : β}
    (h : w.installDestination e content = some w') : w'.Installed e content := by
  unfold World.installDestination at h
  unfold World.Installed World.destination
  split at h <;> obtain ⟨t, ht, rfl⟩ := Option.map_eq_some_iff.1 h
  · exact .of_install ht
  · exact .of_install ht

theorem World.installDestination_cache {content : β}
    (h : w.installDestination e content = some w') : w'.cache = w.cache := by
  unfold World.installDestination at h
  split at h <;> obtain ⟨t, ht, rfl⟩ := Option.map_eq_some_iff.1 h <;> rfl

theorem World.installCache_destination {fromCache : Bool} {src : Path} {content : β}
    (h : w.installCache fromCache a src content = some w') (e : Entry) :
    w'.destination e = w.destination e := by
  unfold World.installCache at h
  split_ifs at h
  · cases h
    rfl
  · obtain ⟨t, ht, rfl⟩ := Option.map_eq_some_iff.1 h
    rfl

/-- The paths of two entries lie side by side. -/
def Entry.Apart (e a : Entry) : Prop := ¬ e.rel <+: a.rel ∧ ¬ a.rel <+: e.rel

theorem Entry.rel_eq_of_deviceRel {p : Path} (h : e.deviceRel = some p) :
    e.rel = "@device" :: p := by
  unfold deviceRel at h
  split at h
  · next heq =>
    cases h
    exact heq
  · cases h

/-- The copy for one entry does not disturb another. -/
theorem World.Installed.installDestination {content c : β} (hapart : e.Apart a)
    (h : w.Installed e content) (hi : w.installDestination a c = some w') :
    w'.Installed e content := by
  unfold World.Installed World.destination at h ⊢
  unfold World.installDestination at hi
  cases ha : a.deviceRel with
  | none =>
      rw [ha] at hi
      obtain ⟨t, ht, rfl⟩ := Option.map_eq_some_iff.1 hi
      cases he : e.deviceRel with
      | none =>
          rw [he] at h
          exact h.frame ht (target_ne hapart.1 hapart.2)
      | some p => simpa [he] using h
  | some q =>
      rw [ha] at hi
      obtain ⟨t, ht, rfl⟩ := Option.map_eq_some_iff.1 hi
      cases he : e.deviceRel with
      | none => simpa [he] using h
      | some p =>
          rw [he] at h
          rw [Entry.Apart, Entry.rel_eq_of_deviceRel he,
            Entry.rel_eq_of_deviceRel ha] at hapart
          refine h.frame ht (target_ne ?_ ?_)
          · exact fun hp => hapart.1 ((List.prefix_cons_inj _).2 hp)
          · exact fun hp => hapart.2 ((List.prefix_cons_inj _).2 hp)

/-- An entry that is extracted is in place afterwards. -/
theorem extractEntry_installed (h : extractEntry sha1sum strict source w e = .ok w') :
    ∃ content, blob (source.getD w.cache) e = some content ∧
      w'.Installed e content := by
  obtain ⟨src, content, w₁, hfind, -, hdest, hcache⟩ := extractEntry_eq_ok h
  refine ⟨content, by simp [blob, hfind], ?_⟩
  have hin := World.installed_of_installDestination hdest
  unfold World.Installed at hin ⊢
  rwa [World.installCache_destination hcache]

theorem World.Installed.extractEntry {content : β} (hin : w.Installed e content)
    (hapart : e.Apart a) (h : extractEntry sha1sum strict source w a = .ok w') :
    w'.Installed e content := by
  obtain ⟨src, c, w₁, -, -, hdest, hcache⟩ := extractEntry_eq_ok h
  have hin := hin.installDestination hapart hdest
  unfold World.Installed at hin ⊢
  rwa [World.installCache_destination hcache]

theorem World.Installed.extractEntries {content : β} {es : List Entry}
    (hin : w.Installed e content) (hapart : ∀ a ∈ es, e.Apart a)
    (h : extractEntries sha1sum strict source es w = .ok w') :
    w'.Installed e content := by
  induction es generalizing w with
  | nil =>
      cases h
      exact hin
  | cons a es ih =>
      obtain ⟨w₁, ha, hes⟩ := extractEntries_cons.1 h
      have hin := hin.extractEntry (hapart a (by simp)) ha
      exact ih hin (fun b hb => hapart b (by simp [hb])) hes

theorem extract_eq_ok {es : List Entry} :
    extract sha1sum strict source es w = .ok w' ↔
      (w.hasRepo ∧ w.hasVendor) ∧ isDir (source.getD w.cache) [] ∧
        extractEntries sha1sum strict source es w = .ok w' := by
  unfold extract
  by_cases hroot : w.hasRepo ∧ w.hasVendor
  · by_cases hdir : isDir (source.getD w.cache) []
    · simp [hroot, hdir]
    · simp [hroot, hdir]
  · simp [hroot]

theorem World.installDestination_checks {content : β}
    (h : w.installDestination e content = some w') :
    w'.hasRepo = w.hasRepo ∧ w'.hasVendor = w.hasVendor := by
  unfold World.installDestination at h
  split at h <;> obtain ⟨t, ht, rfl⟩ := Option.map_eq_some_iff.1 h <;> exact ⟨rfl, rfl⟩

end Steps

end MozartLineage.Blobs
