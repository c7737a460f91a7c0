import MozartLineage.Blobs.Extract

/-!
# Installation of the device tree

`installDeviceTree` replaces the pinned device tree by the maintained one. What the copy
excludes stays: the metadata of the repository, the prebuilt programs below `rootdir/sbin`
and the browser packages. The extraction of the blobs copies to `rootdir/sbin` later on, so
the two do not disturb each other, and the program whose hash is checked is not among what
is extracted.
-/

namespace MozartLineage.Patching

open FileTree Blobs

variable {β : Type*}

/-- What `--exclude` names. The last directory is one only if it is a directory. -/
def excluded (target : Files β) : Path → Bool
  | ".git" :: _ => true
  | "rootdir" :: "sbin" :: _ => true
  | "prebuilt" :: "cromite" :: "lib" :: _ => isDir target ["prebuilt", "cromite", "lib"]
  | "prebuilt" :: "cromite" :: name :: _ => name.endsWith ".apk"
  | _ => false

/-- The maintained tree. The directories around what is excluded are in it, and the browser
libraries are not. -/
structure SourceTree (β : Type*) where
  files : Files β
  dirs : ∀ p ∈ [[], ["rootdir"], ["prebuilt"], ["prebuilt", "cromite"]], files p = some .dir
  lib : files ["prebuilt", "cromite", "lib"] = none

/-- `rsync -a --delete` with the excludes. -/
def rsync (source : SourceTree β) (target : Files β) : Files β := fun p =>
  if excluded target p then target p else source.files p

def hwHealthd : Path := ["rootdir", "sbin", "hw_healthd"]

def hwHealthdSha1 : String := "6cad7ff3470a05df2bccef2489ba96d07286052d"

section Install

variable (sha1sum : β → String) (hasRsync : Bool)

/-- The exit status and the messages of what is checked first. -/
def checkDeviceTree (androidTop : String) (w : World β) : Option (ℕ × List String) :=
  let targetTree := androidTop ++ "/device/huawei/mozart"
  if ¬ w.hasRepo then
    some (2, ["error: " ++ androidTop ++ " does not look like an Android repo checkout"])
  else if ¬ isDir w.device [".git"] then
    some (3, ["error: pinned kirin930 device baseline is missing: " ++ targetTree,
      "copy local_manifests/mozart.xml into .repo/local_manifests and run repo sync first"])
  else if ¬ hasRsync then
    some (3, ["error: rsync is required to install the maintained device source"])
  else
    match read w.device hwHealthd with
    | none => some (4, ["error: pinned device baseline is missing proprietary prebuilt: " ++
        "rootdir/sbin/hw_healthd"])
    | some content =>
        if sha1sum content ≠ hwHealthdSha1 then
          some (4, ["error: unexpected sha1 for rootdir/sbin/hw_healthd",
            "expected: " ++ hwHealthdSha1, "actual:   " ++ sha1sum content])
        else none

def installDeviceTree (androidTop : String) (source : SourceTree β) (w : World β) :
    World β × Option ℕ :=
  match checkDeviceTree sha1sum hasRsync androidTop w with
  | some failure => (w, some failure.1)
  | none => ({ w with device := rsync source w.device }, none)

end Install

section Lemmas

variable {sha1sum : β → String} {hasRsync : Bool} {androidTop : String}
  {source : SourceTree β} {t : Files β} {w w' : World β} {p q : Path} {content : β}

/-- The exclusions depend on one directory only. -/
theorem excluded_congr {t' : Files β}
    (h : isDir t' ["prebuilt", "cromite", "lib"] = isDir t ["prebuilt", "cromite", "lib"]) :
    excluded t' p = excluded t p := by
  unfold excluded
  split <;> simp [h]

theorem isDir_rsync_lib : isDir (rsync source t) ["prebuilt", "cromite", "lib"] =
    isDir t ["prebuilt", "cromite", "lib"] := by
  by_cases hdir : isDir t ["prebuilt", "cromite", "lib"] = true
  · have hexcluded : excluded t ["prebuilt", "cromite", "lib"] = true := by
      simpa [excluded] using hdir
    simp [isDir, rsync, hexcluded]
  · have hexcluded : ¬ excluded t ["prebuilt", "cromite", "lib"] = true := by
      simpa [excluded] using hdir
    simp only [Bool.not_eq_true] at hdir
    rw [hdir]
    simp [isDir, rsync, hexcluded, source.lib]

@[simp] theorem rsync_rsync (source : SourceTree β) (t : Files β) :
    rsync source (rsync source t) = rsync source t := by
  funext p
  have hsame : excluded (rsync source t) p = excluded t p := excluded_congr isDir_rsync_lib
  unfold rsync at hsame ⊢
  rw [hsame]
  split_ifs <;> rfl

theorem rsync_of_excluded (h : excluded t p = true) : rsync source t p = t p := by
  simp [rsync, h]

/-- The checks depend on two places of the device tree. -/
theorem checkDeviceTree_congr (hrepo : w'.hasRepo = w.hasRepo)
    (hgit : isDir w'.device [".git"] = isDir w.device [".git"])
    (hread : read w'.device hwHealthd = read w.device hwHealthd) :
    checkDeviceTree sha1sum hasRsync androidTop w' =
      checkDeviceTree sha1sum hasRsync androidTop w := by
  simp only [checkDeviceTree, hrepo, hgit, hread]

theorem checkDeviceTree_rsync :
    checkDeviceTree sha1sum hasRsync androidTop { w with device := rsync source w.device } =
      checkDeviceTree sha1sum hasRsync androidTop w := by
  refine checkDeviceTree_congr rfl ?_ ?_
  · have hgit : rsync source w.device [".git"] = w.device [".git"] := rsync_of_excluded rfl
    simp only [isDir, hgit]
  · have hhealthd : rsync source w.device hwHealthd = w.device hwHealthd :=
      rsync_of_excluded rfl
    simp only [FileTree.read, hhealthd]

/-- The installation has nothing to do if the checks go well and the copy is up to date. -/
theorem installDeviceTree_eq_self :
    installDeviceTree sha1sum hasRsync androidTop source w = (w, none) ↔
      checkDeviceTree sha1sum hasRsync androidTop w = none ∧ rsync source w.device = w.device := by
  unfold installDeviceTree
  cases checkDeviceTree sha1sum hasRsync androidTop w with
  | some failure => simp
  | none =>
      simp only [Prod.mk.injEq, and_true, true_and]
      constructor
      · intro h
        exact congrArg World.device h
      · intro h
        rw [h]

theorem installDeviceTree_again (w : World β) :
    installDeviceTree sha1sum hasRsync androidTop source
        (installDeviceTree sha1sum hasRsync androidTop source w).1 =
      installDeviceTree sha1sum hasRsync androidTop source w := by
  unfold installDeviceTree
  cases hcheck : checkDeviceTree sha1sum hasRsync androidTop w with
  | some failure => simp [hcheck]
  | none => simp [checkDeviceTree_rsync, hcheck]

/-- A directory above a place below `rootdir/sbin` is excluded, or the source has it. -/
theorem mem_dirs_of_above {rest : Path} (hex : ¬ excluded t p = true)
    (habove : p <+: ["rootdir", "sbin"] ++ rest) :
    p ∈ [[], ["rootdir"], ["prebuilt"], ["prebuilt", "cromite"]] := by
  obtain ⟨s, hs⟩ := habove
  cases p with
  | nil => simp
  | cons a p =>
      simp only [List.cons_append, List.nil_append, List.cons.injEq] at hs
      obtain ⟨rfl, hs⟩ := hs
      cases p with
      | nil => simp
      | cons b p =>
          simp only [List.cons_append, List.cons.injEq] at hs
          obtain ⟨rfl, -⟩ := hs
          exact (hex rfl).elim

/-- A file written below `rootdir/sbin` leaves the copy up to date. -/
theorem rsync_write (hq : ["rootdir", "sbin"] <+: q) (h : rsync source t = t) :
    rsync source (write t q content) = write t q content := by
  obtain ⟨rest, rfl⟩ := hq
  have hlib : write t (["rootdir", "sbin"] ++ rest) content ["prebuilt", "cromite", "lib"] =
      t ["prebuilt", "cromite", "lib"] := by
    simp [write]
  funext p
  have hsame : excluded (write t (["rootdir", "sbin"] ++ rest) content) p = excluded t p :=
    excluded_congr (by simp only [isDir, hlib])
  by_cases hex : excluded t p = true
  · rw [rsync_of_excluded (hsame.trans hex)]
  · have hp : t p = source.files p := by
      have := congrFun h p
      simpa [rsync, hex] using this.symm
    have hne : p ≠ ["rootdir", "sbin"] ++ rest := by
      rintro rfl
      exact hex rfl
    rw [rsync, hsame, if_neg hex, ← hp]
    by_cases habove : p <+: ["rootdir", "sbin"] ++ rest
    · -- a directory above it is one of the source
      have hdir : t p = some .dir := by
        rw [hp]
        exact source.dirs p (mem_dirs_of_above hex habove)
      rw [write_of_some hne hdir, hdir]
    · rw [write, if_neg hne, if_neg fun hand => habove hand.1]

/-- What is extracted below `rootdir/sbin`, but for the program that is checked, leaves the
installation as it is. -/
theorem installDeviceTree_installDestination {e : Entry}
    (hsbin : ∀ d, e.deviceRel = some d → ["rootdir", "sbin"] <+: d ∧ ¬ d <+: hwHealthd)
    (h : installDeviceTree sha1sum hasRsync androidTop source w = (w, none))
    (hi : w.installDestination e content = some w') :
    installDeviceTree sha1sum hasRsync androidTop source w' = (w', none) := by
  obtain ⟨hcheck, hsync⟩ := installDeviceTree_eq_self.1 h
  unfold World.installDestination at hi
  cases hd : e.deviceRel with
  | none =>
      rw [hd] at hi
      obtain ⟨t, -, rfl⟩ := Option.map_eq_some_iff.1 hi
      exact installDeviceTree_eq_self.2
        ⟨(checkDeviceTree_congr (w := w) rfl rfl rfl).trans hcheck, hsync⟩
  | some d =>
      rw [hd] at hi
      obtain ⟨t, ht, rfl⟩ := Option.map_eq_some_iff.1 hi
      obtain ⟨hw, rfl⟩ := install_eq_some.1 ht
      obtain ⟨hroot, hne⟩ := hsbin d hd
      have hbelow := hroot.trans (prefix_target w.device e.baseName d)
      refine installDeviceTree_eq_self.2 ⟨?_, rsync_write hbelow hsync⟩
      rw [← hcheck]
      refine checkDeviceTree_congr rfl ?_ ?_
      · obtain ⟨rest, hrest⟩ := hbelow
        simp [isDir, write, ← hrest]
      · rw [read_write, if_neg]
        intro heq
        exact hne (heq ▸ prefix_target w.device e.baseName d)

end Lemmas

end MozartLineage.Patching
