import MozartLineage.Blobs.Cache
import MozartLineage.Patching.DeviceTree
import MozartLineage.Patching.Stack

/-!
# Preparation of a checkout

`commands` is the whole script: the check of the checkout, the installation of the device
tree, the patches, and the extraction of the blobs from the cache, which is left out where
the cache has no file. The commands write to different places, or next to each other, so
the script may be interrupted anywhere and started again.

The cache has to serve each entry from the path that the entry is cached under: then the
extraction does not write to it.
-/

namespace MozartLineage.Patching

open Diff Transition FileTree Blobs

/-- What the script works on. -/
structure Build (β : Type*) where
  world : World β
  repos : Repositories String String

inductive Command where
  | checkout
  | device
  | patch (a : Application String String)
  | blobs
  | blob (e : Entry)

/-- The tools, the environment and the maintained tree. `cacheFilled` says whether there is
a file in the cache. -/
structure Setting (β : Type*) where
  apply : Applier String
  sha1sum : β → String
  hasRsync : Bool
  cacheFilled : Files β → Bool
  strict : Bool
  androidTop : String
  source : SourceTree β

variable {β : Type*}

namespace Setting

variable (setting : Setting β)

/-- The checks before the loop over the manifest. -/
def checkBlobs (w : World β) : Option ℕ :=
  if ¬ (w.hasRepo ∧ w.hasVendor) then some 2 else if ¬ isDir w.cache [] then some 3 else none

def exec : Command → Build β → Build β × Option ℕ
  | .checkout, b => (b, if b.world.hasRepo then none else some 2)
  | .device, b =>
      let r := installDeviceTree setting.sha1sum setting.hasRsync setting.androidTop
        setting.source b.world
      ({ b with world := r.1 }, r.2)
  | .patch a, b =>
      let r := applyOnce setting.apply a b.repos
      ({ b with repos := r.1 }, r.2)
  | .blobs, b =>
      (b, if setting.cacheFilled b.world.cache then checkBlobs b.world else none)
  | .blob e, b =>
      if setting.cacheFilled b.world.cache then
        match extractEntry setting.sha1sum setting.strict none b.world e with
        | .ok w => ({ b with world := w }, none)
        | .error r => ({ b with world := r.2 }, some r.1)
      else (b, none)

/-- The patches that are written. -/
def patched : Command → Build β → List (String × String)
  | .patch a, b => written setting.apply a b.repos
  | _, _ => []

end Setting

/-- The script, with the contents of the patches and the manifest of the blobs. -/
def commands (diffs : Contents) (entries : List Entry) : List Command :=
  [.checkout, .device] ++ (stack diffs).map .patch ++ .blobs :: entries.map .blob

/-- If the entry is found in the cache, it is found where it is cached. -/
def Served (cache : Files β) (e : Entry) : Prop :=
  ∀ src content, findBlob cache e.sourceRel = some (src, content) → src = e.cachePath

/-- The entry goes to the vendor tree, or below `rootdir/sbin` next to `hw_healthd`. -/
def BelowSbin (e : Entry) : Prop :=
  ∀ d, e.deviceRel = some d → ["rootdir", "sbin"] <+: d ∧ ¬ d <+: hwHealthd

/-- The lines that the patches are found by are there, and the cache serves the manifest. -/
structure Prepared (entries : List Entry) (b : Build β) : Prop where
  known : AllKnown known b.repos
  served : ∀ e ∈ entries, Served b.world.cache e

section Blob

variable {setting : Setting β} {w w' : World β} {b : Build β} {e a : Entry} {content : β}

/-- An entry from the cache is copied to its destination only, or not at all. -/
theorem extractEntry_cases (sha1sum : β → String) (strict : Bool)
    (hserved : Served w.cache e) :
    (∃ n, extractEntry sha1sum strict none w e = .error (n, w)) ∨
      ∃ content w', findBlob w.cache e.sourceRel = some (e.cachePath, content) ∧
        ¬ HashRejects sha1sum strict e content ∧ w.installDestination e content = some w' ∧
        extractEntry sha1sum strict none w e = .ok w' := by
  cases hfind : findBlob w.cache e.sourceRel with
  | none => exact Or.inl ⟨3, by simp [extractEntry, hfind]⟩
  | some p =>
      obtain ⟨src, content⟩ := p
      obtain rfl := hserved src content hfind
      by_cases hhash : HashRejects sha1sum strict e content
      · exact Or.inl ⟨4, by simp [extractEntry, hfind, hhash]⟩
      · cases hdest : w.installDestination e content with
        | none => exact Or.inl ⟨1, by simp [extractEntry, hfind, hhash, hdest]⟩
        | some w' =>
            refine Or.inr ⟨content, w', rfl, hhash, hdest, ?_⟩
            simp [extractEntry, hfind, hhash, hdest, World.installCache]

theorem installDestination_of_installed (h : w.Installed e content) :
    w.installDestination e content = some w := by
  unfold World.Installed World.destination at h
  unfold World.installDestination
  cases hd : e.deviceRel with
  | none =>
      rw [hd] at h
      simp [h.install_eq]
  | some p =>
      rw [hd] at h
      simp [h.install_eq]

/-- The entry is in place, with what the cache has for it. -/
def InPlace (setting : Setting β) (w : World β) (e : Entry) : Prop :=
  ∃ content, findBlob w.cache e.sourceRel = some (e.cachePath, content) ∧
    ¬ HashRejects setting.sha1sum setting.strict e content ∧ w.Installed e content

theorem settled_blob_iff (hserved : Served b.world.cache e) :
    Settled setting.exec (.blob e) b ↔
      (setting.cacheFilled b.world.cache → InPlace setting b.world e) := by
  by_cases hfilled : setting.cacheFilled b.world.cache = true
  · rcases extractEntry_cases setting.sha1sum setting.strict hserved with
      ⟨n, hn⟩ | ⟨content, w', hfind, hhash, hdest, hok⟩
    · have hnot : ¬ InPlace setting b.world e := by
        rintro ⟨content, hfind, hhash, hin⟩
        have hdest := installDestination_of_installed hin
        simp [extractEntry, hfind, hhash, hdest, World.installCache] at hn
      simp [Settled, Setting.exec, hfilled, hn, hnot]
    · have hiff : InPlace setting b.world e ↔ w' = b.world := by
        constructor
        · rintro ⟨c, hc, -, hin⟩
          rw [hfind] at hc
          cases hc
          rw [installDestination_of_installed hin] at hdest
          exact (Option.some.inj hdest).symm
        · rintro rfl
          exact ⟨content, hfind, hhash, World.installed_of_installDestination hdest⟩
      obtain ⟨world, repos⟩ := b
      simp [Settled, Setting.exec, hfilled, hok, hiff]
  · simp [Settled, Setting.exec, hfilled]

/-- What an entry leaves behind, if it does not leave all as it was. -/
theorem exec_blob_cases (setting : Setting β) (hserved : Served b.world.cache e) :
    (setting.exec (.blob e) b).1 = b ∨
      ∃ content w', b.world.installDestination e content = some w' ∧
        (setting.exec (.blob e) b).1 = { b with world := w' } ∧
        Settled setting.exec (.blob e) { b with world := w' } ∧
        (setting.exec (.blob e) b).2 = none := by
  by_cases hfilled : setting.cacheFilled b.world.cache = true
  · rcases extractEntry_cases setting.sha1sum setting.strict hserved with
      ⟨n, hn⟩ | ⟨content, w', hfind, hhash, hdest, hok⟩
    · exact Or.inl (by simp [Setting.exec, hfilled, hn])
    · have hcache := World.installDestination_cache hdest
      refine Or.inr ⟨content, w', hdest, by simp [Setting.exec, hfilled, hok], ?_,
        by simp [Setting.exec, hfilled, hok]⟩
      refine (settled_blob_iff (by rwa [hcache])).2 fun _ => ⟨content, ?_, hhash, ?_⟩
      · rw [hcache]
        exact hfind
      · exact World.installed_of_installDestination hdest
  · exact Or.inl (by simp [Setting.exec, hfilled])

end Blob

/-! ### The commands one after the other -/

section Commands

variable {setting : Setting β} {entries : List Entry} {b : Build β} {c : Command}

/-- No command touches what is checked first, or the cache. -/
theorem exec_checks (setting : Setting β) (hserved : ∀ e, c = .blob e → Served b.world.cache e) :
    (setting.exec c b).1.world.hasRepo = b.world.hasRepo ∧
      (setting.exec c b).1.world.hasVendor = b.world.hasVendor ∧
      (setting.exec c b).1.world.cache = b.world.cache := by
  cases c with
  | checkout | patch | blobs => exact ⟨rfl, rfl, rfl⟩
  | device =>
      simp only [Setting.exec, installDeviceTree]
      split <;> exact ⟨rfl, rfl, rfl⟩
  | blob e =>
      rcases exec_blob_cases setting (hserved e rfl) with h | ⟨content, w', hdest, h, -, -⟩
      · rw [h]
        exact ⟨rfl, rfl, rfl⟩
      · rw [h]
        obtain ⟨hrepo, hvendor⟩ := World.installDestination_checks hdest
        exact ⟨hrepo, hvendor, World.installDestination_cache hdest⟩

/-- Only a patch changes a repository. -/
theorem exec_repos (setting : Setting β) (hserved : ∀ e, c = .blob e → Served b.world.cache e)
    (hc : ∀ a, c ≠ .patch a) : (setting.exec c b).1.repos = b.repos := by
  cases c with
  | checkout | device | blobs => rfl
  | patch a => exact (hc a rfl).elim
  | blob e =>
      rcases exec_blob_cases setting (hserved e rfl) with h | ⟨content, w', -, h, -, -⟩ <;> rw [h]

theorem settled_checkout_iff :
    Settled setting.exec .checkout b ↔ b.world.hasRepo = true := by
  simp [Settled, Setting.exec]

theorem settled_blobs_iff :
    Settled setting.exec .blobs b ↔
      (setting.cacheFilled b.world.cache → Setting.checkBlobs b.world = none) := by
  simp [Settled, Setting.exec]

theorem settled_patch_iff {a : Application String String} :
    Settled setting.exec (.patch a) b ↔ Settled (applyOnce setting.apply) a b.repos := by
  obtain ⟨world, repos⟩ := b
  simp [Settled, Setting.exec, Prod.ext_iff]

theorem settled_device_iff :
    Settled setting.exec .device b ↔
      installDeviceTree setting.sha1sum setting.hasRsync setting.androidTop setting.source
        b.world = (b.world, none) := by
  obtain ⟨world, repos⟩ := b
  simp [Settled, Setting.exec, Prod.ext_iff]

/-- The extraction leaves the device tree up to date. -/
theorem settled_device_blob {e : Entry} (hserved : Served b.world.cache e) (he : BelowSbin e)
    (h : Settled setting.exec .device b) :
    Settled setting.exec .device (setting.exec (.blob e) b).1 := by
  rcases exec_blob_cases setting hserved with heq | ⟨content, w', hdest, heq, -, -⟩
  · rwa [heq]
  · rw [heq, settled_device_iff]
    exact installDeviceTree_installDestination he (settled_device_iff.1 h) hdest

theorem settled_blob_blob {e a : Entry} (he : Served b.world.cache e)
    (ha : Served b.world.cache a) (hapart : e.Apart a) (h : Settled setting.exec (.blob e) b) :
    Settled setting.exec (.blob e) (setting.exec (.blob a) b).1 := by
  rcases exec_blob_cases setting ha with heq | ⟨content, w', hdest, heq, -, -⟩
  · rwa [heq]
  · have hcache := World.installDestination_cache hdest
    rw [heq]
    refine (settled_blob_iff (by rwa [hcache])).2 fun hfilled => ?_
    rw [hcache] at hfilled
    obtain ⟨c, hfind, hhash, hin⟩ := (settled_blob_iff he).1 h hfilled
    exact ⟨c, by rwa [hcache], hhash, hin.installDestination hapart hdest⟩

theorem Prepared.exec (happly : setting.apply.IsLawful) (diffs : Contents)
    (hc : c ∈ commands diffs entries) (hb : Prepared entries b) :
    Prepared entries (setting.exec c b).1 := by
  have hserved : ∀ e, c = .blob e → Served b.world.cache e := by
    rintro e rfl
    refine hb.served e ?_
    simpa [commands] using hc
  refine ⟨?_, fun e he => ?_⟩
  · cases c with
    | patch a =>
        have ha : a ∈ stack diffs := by simpa [commands] using hc
        exact hb.known.applyOnce happly ((stack_compatible diffs).keeps a ha)
    | checkout | device | blobs | blob =>
        rw [exec_repos setting hserved (by simp)]
        exact hb.known
  · rw [(exec_checks setting hserved).2.2]
    exact hb.served e he

/-- Once more, each command does the same. -/
theorem exec_exec (happly : setting.apply.IsLawful)
    (hserved : ∀ e, c = .blob e → Served b.world.cache e) :
    setting.exec c (setting.exec c b).1 = setting.exec c b := by
  cases c with
  | checkout | blobs => rfl
  | device => simp [Setting.exec, installDeviceTree_again]
  | patch a => simp [Setting.exec, applyOnce_applyOnce happly]
  | blob e =>
      rcases exec_blob_cases setting (hserved e rfl) with h | ⟨content, w', -, h, hsettled, hnone⟩
      · rw [h]
      · rw [h]
        exact hsettled.trans (Prod.ext h hnone).symm

/-- What is done in front of the extraction stays done. -/
theorem settled_of_world {d : Command} (h : Settled setting.exec c b)
    (hc : c = .checkout ∨ c = .blobs)
    (hserved : ∀ e, d = .blob e → Served b.world.cache e) :
    Settled setting.exec c (setting.exec d b).1 := by
  obtain ⟨hrepo, hvendor, hcache⟩ := exec_checks setting hserved
  rcases hc with rfl | rfl
  · rw [settled_checkout_iff] at h ⊢
    exact hrepo.trans h
  · rw [settled_blobs_iff] at h ⊢
    rwa [hcache, show Setting.checkBlobs (setting.exec d b).1.world = Setting.checkBlobs b.world by
      simp only [Setting.checkBlobs, hrepo, hvendor, hcache]]

theorem commands_resumable (happly : setting.apply.IsLawful) (diffs : Contents) {m : Manifest}
    (hsbin : ∀ e ∈ m.entries, BelowSbin e) :
    Resumable setting.exec setting.patched (Prepared m.entries) (commands diffs m.entries) := by
  have hstack := (stack_compatible diffs).resumable happly
  have hserved : ∀ c ∈ commands diffs m.entries, ∀ b : Build β, Prepared m.entries b →
      ∀ e, c = .blob e → Served b.world.cache e := by
    rintro c hc b hb e rfl
    exact hb.served e (by simpa [commands] using hc)
  have hlast : ∀ c ∈ Command.blobs :: m.entries.map .blob,
      c ∈ commands diffs m.entries ∧ ∀ a, c ≠ .patch a := by
    intro c hc
    refine ⟨List.mem_append_right _ hc, ?_⟩
    rintro a rfl
    simp at hc
  refine ⟨fun c hc b hb => hb.exec happly diffs hc,
    fun c hc b hb => exec_exec happly (hserved c hc b hb), ?_, ?_⟩
  · refine List.pairwise_append.2 ⟨List.pairwise_append.2 ⟨?_, ?_, ?_⟩, ?_, ?_⟩
    · refine List.pairwise_pair.2 fun b _ h => ?_
      exact settled_of_world h (Or.inl rfl) (by simp)
    · refine List.pairwise_map.2 (hstack.frame.imp fun hframe b hb h => ?_)
      exact settled_patch_iff.2 (hframe b.repos hb.known (settled_patch_iff.1 h))
    · intro c hc d hd b hb h
      obtain ⟨a, -, rfl⟩ := List.mem_map.1 hd
      simp only [List.mem_cons, List.not_mem_nil, or_false] at hc
      rcases hc with rfl | rfl
      · exact settled_of_world h (Or.inl rfl) (by simp)
      · have hdevice := settled_device_iff.1 h
        exact settled_device_iff.2 hdevice
    · refine List.pairwise_cons.2 ⟨fun d hd b hb h => ?_, ?_⟩
      · obtain ⟨e, he, rfl⟩ := List.mem_map.1 hd
        exact settled_of_world h (Or.inr rfl) (by rintro e' ⟨⟩; exact hb.served e he)
      · refine List.pairwise_map.2 (m.apart.imp_of_mem fun he ha hapart b hb h => ?_)
        exact settled_blob_blob (hb.served _ he) (hb.served _ ha) hapart h
    · intro c hc d hd b hb h
      obtain ⟨hmem, hpatch⟩ := hlast d hd
      have hd' := hserved d hmem b hb
      simp only [List.mem_append, List.mem_cons, List.not_mem_nil, or_false, List.mem_map] at hc
      rcases hc with (rfl | rfl) | ⟨a, -, rfl⟩
      · exact settled_of_world h (Or.inl rfl) hd'
      · rcases List.mem_cons.1 hd with rfl | hd
        · exact h
        · obtain ⟨e, he, rfl⟩ := List.mem_map.1 hd
          exact settled_device_blob (hb.served e he) (hsbin e he) h
      · rw [settled_patch_iff, exec_repos setting hd' hpatch]
        exact settled_patch_iff.1 h
  · intro c hc b hb hsame
    cases c with
    | patch a =>
        have ha : a ∈ stack diffs := by simpa [commands] using hc
        exact hstack.quiet a ha b.repos hb.known (congrArg Build.repos hsame)
    | checkout | device | blobs | blob => rfl

end Commands

/-! ### Runs of the whole script -/

/-- The tree that is installed, with one file. -/
def deviceSource : SourceTree String where
  files p :=
    if p ∈ [[], ["rootdir"], ["prebuilt"], ["prebuilt", "cromite"]] then some .dir
    else if p = ["device.mk"] then some (.file "maintained")
    else none
  dirs p hp := if_pos hp
  lib := by decide

def teecdManifest : Manifest where
  entries := [⟨["@device", "rootdir", "sbin", "teecd"], ["bin", "teecd"], ""⟩]
  paths_ne := by decide
  apart := List.pairwise_singleton _ _
  sources_apart := by decide

def teecdSetting : Setting String where
  apply := leftmost
  sha1sum content := if content = "hw_healthd" then hwHealthdSha1 else ""
  hasRsync := true
  cacheFilled t := (FileTree.read t ["system", "bin", "teecd"]).isSome
  strict := true
  androidTop := "/android"
  source := deviceSource

/-- A checkout as it is synchronized, and a cache with one blob. -/
def syncedCheckout : Build String where
  world :=
    { hasRepo := true
      hasVendor := true
      device := write (write (fun _ => none) hwHealthd "hw_healthd") [".git", "HEAD"] "pinned"
      vendor _ := none
      cache := write (fun _ => none) ["system", "bin", "teecd"] "teecd" }
  repos := freshCheckout

theorem teecd_belowSbin : ∀ e ∈ teecdManifest.entries, BelowSbin e := by
  intro e he d hd
  obtain rfl := List.mem_singleton.1 he
  cases hd
  exact ⟨by decide, by decide⟩

theorem syncedCheckout_prepared : Prepared teecdManifest.entries syncedCheckout where
  known := freshCheckout_known
  served := by
    intro e he src content hfind
    obtain rfl := List.mem_singleton.1 he
    have hblob : findBlob syncedCheckout.world.cache ["bin", "teecd"] =
        some (["system", "bin", "teecd"], "teecd") := by decide
    rw [hblob] at hfind
    cases hfind
    rfl

section Runs

variable {setting : Setting β} {b : Build β}

end Runs

end MozartLineage.Patching
