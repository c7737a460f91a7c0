import MozartLineage.Blobs.Extract
import Mathlib.Data.List.Pairwise

/-!
# Extraction from the cache

The first run copies from a stock tree and fills the cache; a later run copies
from the cache. An entry is cached under one path and looked up under three, so
the later run finds what the first one found only if the first of the three that
is somebody's cache path is that of an entry with the same file.

After the first run every entry is in place, in its destination and in the
cache, and to extract an entry that is found unchanged is a no-op. This makes a
later run the identity as far as it goes well.
-/

namespace MozartLineage.Blobs

open FileTree

/-- A list of entries. Its paths name files: none is empty, and none lies inside
another one. -/
structure Manifest where
  entries : List Entry
  paths_ne : ∀ e ∈ entries, e.rel ≠ [] ∧ e.sourceRel ≠ []
  apart : entries.Pairwise Entry.Apart
  sources_apart : ∀ e ∈ entries, ∀ a ∈ entries, e.deviceRel.isSome →
    a.deviceRel.isSome → e.sourceRel <+: a.sourceRel → e.sourceRel = a.sourceRel

instance : Std.Symm Entry.Apart where
  symm _ _ h := ⟨h.2, h.1⟩

namespace Manifest

variable {m : Manifest} {e a : Entry}

theorem eq_of_rel_prefix (he : e ∈ m.entries) (ha : a ∈ m.entries)
    (h : e.rel <+: a.rel) : e = a := by
  by_contra hne
  have hapart := m.apart.forall he ha hne
  exact hapart.1 h

theorem apart_of_append {done rest : List Entry} (hm : done ++ e :: rest = m.entries)
    (ha : a ∈ done) : a.Apart e := by
  have hapart := m.apart
  rw [← hm] at hapart
  exact (List.pairwise_append.1 hapart).2.2 a ha e (by simp)

/-- Entries share their place in the cache only with entries of the same file. -/
theorem cachePath_apart (he : e ∈ m.entries) (ha : a ∈ m.entries)
    (h : e.cachePath <+: a.cachePath) :
    e.cachePath = a.cachePath ∧ e.sourceRel = a.sourceRel := by
  unfold Entry.cachePath at h ⊢
  cases hde : e.deviceRel with
  | none =>
      cases hda : a.deviceRel with
      | none =>
          simp only [hde, hda, List.prefix_cons_inj] at h
          obtain rfl := eq_of_rel_prefix he ha h
          simp
      | some q => simp [hde, hda] at h
  | some p =>
      cases hda : a.deviceRel with
      | none => simp [hde, hda] at h
      | some q =>
          simp only [hde, hda, List.prefix_cons_inj] at h
          have heq := m.sources_apart e he a ha (by simp [hde]) (by simp [hda]) h
          simp [heq]

end Manifest

variable {β : Type*}

/-- What the cache holds at a path when the entries have been cached. -/
def cached (entries : List Entry) (stock : Files β) (p : Path) : Option β :=
  (entries.find? fun e => e.cachePath = p).bind (blob stock)

/-- The first of the places where an entry is looked up that is the cache path
of an entry holds the file that the stock tree has for it. -/
def Recovers (entries : List Entry) (stock : Files β) (e : Entry) : Prop :=
  (candidates e.sourceRel).findSome? (cached entries stock) = blob stock e

instance [DecidableEq β] (entries : List Entry) (stock : Files β) (e : Entry) :
    Decidable (Recovers entries stock e) :=
  inferInstanceAs (Decidable (_ = _))

/-- There is no file in the cache, and no directory but its root. -/
def World.EmptyCache (w : World β) : Prop :=
  ∀ p n, w.cache p = some n → p = [] ∧ n = .dir

section FirstRun

variable (sha1sum : β → String) (strict : Bool) (stock : Files β)

/-- The entries of `done` have been extracted from the stock tree. -/
structure Extracted (done : List Entry) (w : World β) : Prop where
  checks : w.hasRepo ∧ w.hasVendor
  installed : ∀ e ∈ done, ∃ content, blob stock e = some content ∧
    ¬ HashRejects sha1sum strict e content ∧ w.Installed e content ∧
    FileTree.Installed w.cache e.baseName e.cachePath content
  read_cache : ∀ p, read w.cache p = cached done stock p
  isDir_cache : ∀ p, isDir w.cache p → p = [] ∨
    ∃ e ∈ done, p <+: e.cachePath ∧ p ≠ e.cachePath

variable {sha1sum strict stock} {m : Manifest} {done rest : List Entry} {e : Entry}
  {w w' : World β}

theorem extracted_nil (hchecks : w.hasRepo ∧ w.hasVendor) (hw : w.EmptyCache) :
    Extracted sha1sum strict stock [] w := by
  refine ⟨hchecks, by simp, fun p => ?_, fun p hp => ?_⟩
  · cases h : read w.cache p with
    | none => rfl
    | some content => cases (hw p _ (read_eq_some.1 h)).2
  · exact Or.inl (hw p _ (isDir_eq_true.1 hp)).1

/-- No cache path of an entry is a directory of the cache. -/
theorem Extracted.target_cachePath (hs : Extracted sha1sum strict stock done w)
    (hdone : ∀ a ∈ done, a ∈ m.entries) (he : e ∈ m.entries) :
    target w.cache e.baseName e.cachePath = e.cachePath := by
  have hdir : isDir w.cache e.cachePath = false := by
    by_contra h
    rcases hs.isDir_cache e.cachePath (by simpa using h) with hnil | ⟨a, ha, hp, hne⟩
    · unfold Entry.cachePath at hnil
      split at hnil <;> simp at hnil
    · exact hne (Manifest.cachePath_apart he (hdone a ha) hp).1
  simp [target, hdir]

theorem cached_append (hdone : ∀ a ∈ done, a ∈ m.entries) (he : e ∈ m.entries)
    (p : Path) :
    cached (done ++ [e]) stock p =
      if p = e.cachePath then blob stock e else cached done stock p := by
  unfold cached
  rw [List.find?_append]
  by_cases hp : p = e.cachePath
  · subst hp
    cases hfind : done.find? fun a => a.cachePath = e.cachePath with
    | none => simp
    | some a =>
        have ha := List.mem_of_find?_eq_some hfind
        have heq : a.cachePath = e.cachePath := by
          simpa using List.find?_some hfind
        have hsource := (Manifest.cachePath_apart (hdone a ha) he
          (heq ▸ List.prefix_rfl)).2
        simp [blob, hsource]
  · have hne : e.cachePath ≠ p := fun h => hp h.symm
    simp [hp, hne]

/-- To cache one entry leaves the cached file of another in place. -/
theorem cached_frame {a : Entry} {t t' : Files β} {c content : β}
    (ha : a ∈ m.entries) (he : e ∈ m.entries) (hc : blob stock a = some c)
    (hcontent : blob stock e = some content)
    (h : FileTree.Installed t a.baseName a.cachePath c)
    (ht : install t e.baseName e.cachePath content = some t') :
    FileTree.Installed t' a.baseName a.cachePath c := by
  by_cases hp : a.cachePath <+: e.cachePath
  · obtain ⟨hpath, hsource⟩ := Manifest.cachePath_apart ha he hp
    have hbase : a.baseName = e.baseName := by simp [Entry.baseName, hsource]
    have hsame : c = content := by
      have hblob : blob stock a = blob stock e := by simp [blob, hsource]
      exact Option.some.inj (hc.symm.trans (hblob.trans hcontent))
    rw [hpath, hbase, hsame]
    exact .of_install ht
  · refine h.frame ht (target_ne hp fun hp' => hp ?_)
    exact (Manifest.cachePath_apart he ha hp').1 ▸ List.prefix_rfl

theorem Extracted.entry (hm : done ++ e :: rest = m.entries)
    (hs : Extracted sha1sum strict stock done w)
    (h : extractEntry sha1sum strict (some stock) w e = .ok w') :
    Extracted sha1sum strict stock (done ++ [e]) w' := by
  have he : e ∈ m.entries := by simp [← hm]
  have hdone : ∀ a ∈ done, a ∈ m.entries := fun a ha => by simp [← hm, ha]
  obtain ⟨src, content, w₁, hfind, hhash, hdest, hcache⟩ := extractEntry_eq_ok h
  have hblob : blob stock e = some content := by
    simpa [blob] using congrArg (Option.map Prod.snd) hfind
  obtain ⟨t, ht, rfl⟩ : ∃ t, install w.cache e.baseName e.cachePath content = some t ∧
      { w₁ with cache := t } = w' := by
    simpa [World.installCache, World.installDestination_cache hdest] using hcache
  have htarget := hs.target_cachePath hdone he
  obtain ⟨hw, hwrite⟩ := install_eq_some.1 ht
  rw [htarget] at hw hwrite
  have hnew : w₁.Installed e content := World.installed_of_installDestination hdest
  refine ⟨?_, fun a ha => ?_, fun p => ?_, fun p hp => ?_⟩
  · obtain ⟨hrepo, hvendor⟩ := World.installDestination_checks hdest
    exact ⟨hrepo.trans hs.checks.1, hvendor.trans hs.checks.2⟩
  · rcases List.mem_append.1 ha with ha | ha
    · obtain ⟨c, hc, hrej, hin, hcached⟩ := hs.installed a ha
      refine ⟨c, hc, hrej, ?_, ?_⟩
      · exact hin.extractEntry (Manifest.apart_of_append hm ha) h
      · exact cached_frame (hdone a ha) he hc hblob hcached ht
    · obtain rfl := List.mem_singleton.1 ha
      exact ⟨content, hblob, hhash, hnew, .of_install ht⟩
  · rw [cached_append hdone he, hwrite, read_write, hblob, hs.read_cache]
  · rw [hwrite] at hp
    rcases isDir_write hp with hp | hp
    · rcases hs.isDir_cache p hp with hnil | ⟨a, ha, hpa⟩
      · exact Or.inl hnil
      · exact Or.inr ⟨a, by simp [ha], hpa⟩
    · exact Or.inr ⟨e, by simp, hp⟩

/-- After a first run that succeeds all entries have been extracted. -/
theorem Extracted.entries {es : List Entry} (hm : done ++ es = m.entries)
    (hs : Extracted sha1sum strict stock done w)
    (h : extractEntries sha1sum strict (some stock) es w = .ok w') :
    Extracted sha1sum strict stock m.entries w' := by
  induction es generalizing done w with
  | nil =>
      cases h
      simpa [← hm] using hs
  | cons e es ih =>
      obtain ⟨w₁, he, hes⟩ := extractEntries_cons.1 h
      exact ih (by simpa using hm) (hs.entry hm he) hes

end FirstRun

/-! ### A later run -/

section LaterRun

variable {sha1sum : β → String} {strict : Bool} {stock : Files β} {m : Manifest}
  {e : Entry} {w w' : World β}

theorem Extracted.blob_cache (hs : Extracted sha1sum strict stock m.entries w)
    (e : Entry) : blob w.cache e = blob stock e ↔ Recovers m.entries stock e := by
  rw [Recovers, blob_eq_findSome? w.cache, funext hs.read_cache]

/-- To extract an entry again that the cache recovers changes nothing. -/
theorem Extracted.extractEntry_cache (hs : Extracted sha1sum strict stock m.entries w)
    (he : e ∈ m.entries) (hr : Recovers m.entries stock e) :
    extractEntry sha1sum strict none w e = .ok w := by
  obtain ⟨c, hc, hhash, hin, hcached⟩ := hs.installed e he
  have hblob : blob w.cache e = some c := ((hs.blob_cache e).2 hr).trans hc
  obtain ⟨⟨src, c'⟩, hfind, hc'⟩ := Option.map_eq_some_iff.1 hblob
  subst hc'
  have hdest : w.installDestination e c' = some w := by
    unfold World.Installed World.destination at hin
    unfold World.installDestination
    cases hd : e.deviceRel with
    | none =>
        rw [hd] at hin
        simp [hin.install_eq]
    | some p =>
        rw [hd] at hin
        simp [hin.install_eq]
  have hcache : w.installCache true e src c' = some w := by
    have htarget := hs.target_cachePath (fun _ ha => ha) he
    unfold World.installCache
    by_cases hsrc : src = e.cachePath
    · simp [hsrc]
    · simp [hsrc, htarget, hcached.install_eq]
  simp [extractEntry, hfind, hhash, hdest, hcache]

theorem Extracted.extractEntries_cache
    (hs : Extracted sha1sum strict stock m.entries w) {es : List Entry}
    (hes : ∀ e ∈ es, e ∈ m.entries) (hr : ∀ e ∈ es, Recovers m.entries stock e) :
    extractEntries sha1sum strict none es w = .ok w := by
  induction es with
  | nil => rfl
  | cons e es ih =>
      refine extractEntries_cons.2 ⟨w, ?_, ?_⟩
      · exact hs.extractEntry_cache (hes e (by simp)) (hr e (by simp))
      · exact ih (fun a ha => hes a (by simp [ha])) fun a ha => hr a (by simp [ha])

/-- A later run puts the same files in place only where the cache recovers
them: up to the first entry that is not recovered nothing changes, and what that
one puts in place stays. -/
theorem Extracted.recovers (hs : Extracted sha1sum strict stock m.entries w)
    {es : List Entry} (hes : ∀ e ∈ es, e ∈ m.entries) (hapart : es.Pairwise Entry.Apart)
    (h : extractEntries sha1sum strict none es w = .ok w')
    (hsame : ∀ e ∈ es, w'.installed e = w.installed e) :
    ∀ e ∈ es, Recovers m.entries stock e := by
  induction es with
  | nil => simp
  | cons e es ih =>
      obtain ⟨hapart_e, hapart⟩ := List.pairwise_cons.1 hapart
      obtain ⟨w₁, he, hrest⟩ := extractEntries_cons.1 h
      obtain ⟨c, hc, -, hin, -⟩ := hs.installed e (hes e (by simp))
      obtain ⟨c', hc', hin'⟩ := extractEntry_installed he
      have hin' := hin'.extractEntries hapart_e hrest
      have heq : c' = c := by
        have := hsame e (by simp)
        rw [hin'.installed_eq, hin.installed_eq] at this
        exact Option.some.inj this
      have hr : Recovers m.entries stock e := by
        rw [← hs.blob_cache, hc, ← heq]
        exact hc'
      have hw : w₁ = w := by
        rw [hs.extractEntry_cache (hes e (by simp)) hr] at he
        exact (Except.ok.inj he).symm
      rw [hw] at hrest
      have hrs := ih (fun a ha => hes a (by simp [ha])) hapart hrest
        fun a ha => hsame a (by simp [ha])
      simpa [hr] using hrs

/-- After a first run the root of the cache is there, if there was an entry to
cache. -/
theorem Extracted.isDir_root (hs : Extracted sha1sum strict stock m.entries w)
    (hne : m.entries ≠ []) : isDir w.cache [] := by
  obtain ⟨e, he⟩ := List.exists_mem_of_ne_nil _ hne
  obtain ⟨c, -, -, -, hcached⟩ := hs.installed e he
  have htarget := hs.target_cachePath (fun _ ha => ha) he
  refine isDir_eq_true.2 (hcached.above [] (List.nil_prefix) ?_)
  rw [htarget]
  unfold Entry.cachePath
  split <;> simp

/-- After a first run that succeeds from an empty cache, a run from the cache
succeeds and leaves the same file at every destination if and only if the cache
recovers every entry and its root is there: it is, unless there was nothing to
cache. -/
theorem extract_cache_iff {m : Manifest} {stock : Files β} {w w₁ : World β}
    (hw : w.EmptyCache)
    (h : extract sha1sum strict (some stock) m.entries w = .ok w₁) :
    (∃ w₂, extract sha1sum strict none m.entries w₁ = .ok w₂ ∧
        ∀ e ∈ m.entries, w₂.installed e = w₁.installed e) ↔
      (∀ e ∈ m.entries, Recovers m.entries stock e) ∧
        (m.entries ≠ [] ∨ isDir w.cache []) := by
  obtain ⟨hchecks, -, hrun⟩ := extract_eq_ok.1 h
  have hs : Extracted sha1sum strict stock m.entries w₁ :=
    (extracted_nil hchecks hw).entries rfl hrun
  constructor
  · rintro ⟨w₂, h₂, hsame⟩
    obtain ⟨-, hdir, hrun₂⟩ := extract_eq_ok.1 h₂
    refine ⟨hs.recovers (fun _ he => he) m.apart hrun₂ hsame, ?_⟩
    by_cases hnil : m.entries = []
    · rw [hnil] at hrun
      cases hrun
      exact Or.inr hdir
    · exact Or.inl hnil
  · rintro ⟨hr, hroot⟩
    have hdir : isDir w₁.cache [] := by
      by_cases hnil : m.entries = []
      · rw [hnil] at hrun
        cases hrun
        exact hroot.resolve_left (not_not.2 hnil)
      · exact hs.isDir_root hnil
    refine ⟨w₁, extract_eq_ok.2 ⟨hs.checks, hdir, ?_⟩, fun _ _ => rfl⟩
    exact hs.extractEntries_cache (fun _ he => he) hr

/-- An entry that is cached under none of the paths it is looked up under is not
recovered. -/
theorem not_recovers {entries : List Entry} {stock : Files β} {e : Entry}
    (hsome : (blob stock e).isSome)
    (h : ∀ a ∈ entries, a.cachePath ∉ candidates e.sourceRel) :
    ¬ Recovers entries stock e := by
  have hnone : (candidates e.sourceRel).findSome? (cached entries stock) = none := by
    refine List.findSome?_eq_none_iff.2 fun p hp => ?_
    have hfind : entries.find? (fun a => a.cachePath = p) = none := by
      refine List.find?_eq_none.2 fun a ha => ?_
      have hne : a.cachePath ≠ p := fun heq => h a ha (heq ▸ hp)
      simpa using hne
    simp [cached, hfind]
  intro hr
  rw [Recovers, hnone] at hr
  simp [← hr] at hsome

/-- An entry of the vendor tree that is looked up under the path it goes to is
recovered. -/
theorem Manifest.recovers {m : Manifest} {stock : Files β} {e : Entry}
    (he : e ∈ m.entries) (hvendor : e.deviceRel = none) (hsource : e.sourceRel = e.rel)
    (hsome : (blob stock e).isSome) : Recovers m.entries stock e := by
  have hpath : e.cachePath = "proprietary" :: e.sourceRel := by
    simp [Entry.cachePath, hvendor, hsource]
  have hcached : cached m.entries stock e.cachePath = blob stock e := by
    unfold cached
    cases hfind : m.entries.find? fun a => a.cachePath = e.cachePath with
    | none => simpa using List.find?_eq_none.1 hfind e he
    | some a =>
        have ha := List.mem_of_find?_eq_some hfind
        have heq : a.cachePath = e.cachePath := by
          simpa using List.find?_some hfind
        have hsame := (cachePath_apart ha he (heq ▸ List.prefix_rfl)).2
        simp [blob, hsame]
  obtain ⟨content, hcontent⟩ := Option.isSome_iff_exists.1 hsome
  rw [hpath, hcontent] at hcached
  simp [Recovers, candidates, hcached, hcontent]

end LaterRun

/-! ### Two manifests -/

/-- A checkout without any blobs. -/
def World.fresh : World String where
  hasRepo := true
  hasVendor := true
  device _ := none
  vendor _ := none
  cache _ := none

/-- A stock tree with the given files. -/
def stockOf (files : List (Path × String)) : Files String :=
  files.foldr (fun file t => write t file.1 file.2) fun _ => none

/-- One entry of each kind that is looked up where it is cached. -/
def plainManifest : Manifest where
  entries :=
    [⟨["@device", "rootdir", "sbin", "teecd"], ["bin", "teecd"], ""⟩,
      ⟨["bin", "gpsdaemon"], ["bin", "gpsdaemon"], ""⟩]
  paths_ne := by decide
  apart := by simp [Entry.Apart]
  sources_apart := by decide

theorem extract_cache_plain :
    ∃ w₁ w₂, extract (fun _ => "") true
        (some (stockOf [(["bin", "teecd"], "a"), (["bin", "gpsdaemon"], "b")]))
        plainManifest.entries World.fresh = .ok w₁ ∧
      extract (fun _ => "") true none plainManifest.entries w₁ = .ok w₂ ∧
      ∀ e ∈ plainManifest.entries, w₂.installed e = w₁.installed e := by
  cases h : extract (fun _ => "") true
      (some (stockOf [(["bin", "teecd"], "a"), (["bin", "gpsdaemon"], "b")]))
      plainManifest.entries World.fresh with
  | error r =>
      have hok : (extract (fun _ => "") true
          (some (stockOf [(["bin", "teecd"], "a"), (["bin", "gpsdaemon"], "b")]))
          plainManifest.entries World.fresh).isOk := by decide
      simp [h, Except.isOk, Except.toBool] at hok
  | ok w₁ =>
      have hempty : World.fresh.EmptyCache := fun p n hn => by cases hn
      obtain ⟨w₂, h₂, hsame⟩ := (extract_cache_iff hempty h).2
        ⟨by decide, Or.inl (by decide)⟩
      exact ⟨w₁, w₂, rfl, h₂, hsame⟩

/-- A library that is looked up under `lib` and cached under
`proprietary/system/lib`. -/
def relocatedManifest : Manifest where
  entries :=
    [⟨["system", "lib", "libSmartAE.so"], ["lib", "libSmartAE.so"],
      "abc18a9469a7fd250cc4bfeb1e34dafbdb70edb2"⟩]
  paths_ne := by decide
  apart := by simp
  sources_apart := by decide

/-- The run from the cache can stop at a blob that the run from the stock tree
has found. -/
theorem extract_cache_relocated :
    ¬ ∀ (sha1sum : String → String) (m : Manifest) (stock : Files String)
        (w w₁ : World String), w.EmptyCache →
      extract sha1sum true (some stock) m.entries w = .ok w₁ →
        ∃ w₂, extract sha1sum true none m.entries w₁ = .ok w₂ ∧
          ∀ e ∈ m.entries, w₂.installed e = w₁.installed e := by
  intro hall
  have hfails : (match extract (fun _ => "abc18a9469a7fd250cc4bfeb1e34dafbdb70edb2") true
      (some (stockOf [(["lib", "libSmartAE.so"], "a")]))
      relocatedManifest.entries World.fresh with
    | .ok w₁ => exitStatus (extract
        (fun _ => "abc18a9469a7fd250cc4bfeb1e34dafbdb70edb2") true none
        relocatedManifest.entries w₁)
    | .error _ => 0) = 3 := by decide
  split at hfails
  · next w₁ h =>
    obtain ⟨w₂, h₂, -⟩ := hall _ _ _ _ w₁ (fun p n hn => by cases hn) h
    simp [h₂, exitStatus] at hfails
  · cases hfails

end MozartLineage.Blobs
