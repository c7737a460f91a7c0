import MozartLineage.Patching.Apply
import Mathlib.Tactic.SplitIfs

/-!
# The patches of this repository

`stack` is the list of the calls of `apply_once`, in their order, with the files that each
patch is about. What the patches say of these files does not matter, but for those of the
vendor repository, of which three are about one makefile. They spare each other as long as
the lines they are found by are in the makefile once.
-/

namespace MozartLineage.Patching

open Diff Transition

/-- A call of `apply_once`, and the files of the patch. -/
structure Listed where
  repo : String
  name : String
  paths : List String
  nodup : paths.Nodup

/-- What each patch says of each file. -/
abbrev Contents := String → String → FileDiff String

def Listed.application (diffs : Contents) (l : Listed) : Application String String where
  repo := l.repo
  name := l.name
  patch := ⟨l.paths.map fun path => (path, diffs l.name path), by
    simpa [Function.comp_def] using l.nodup⟩

/-- `apply_kirin930_patch` -/
def kirin930 (patchRel : String) : String := "patches/upstream/kirin930/" ++ patchRel

/-- The patches before those of the vendor repository. -/
def listed : List Listed :=
  [
    ⟨"build/make", "patches/build/make/mozart-release-ota-build-tools.patch",
      ["core/Makefile", "tools/buildinfo.sh", "tools/releasetools/common.py",
        "tools/releasetools/edify_generator.py", "tools/releasetools/ota_from_target_files.py",
        "tools/releasetools/sign_target_files_apks.py"], by decide⟩,
    ⟨"frameworks/av", "patches/frameworks/av/img-msvdx-decoder-framerate-compat.patch",
      ["media/libstagefright/ACodec.cpp", "media/libstagefright/omx/OMXUtils.cpp"], by decide⟩,
    ⟨"frameworks/av", "patches/frameworks/av/legacy-mozart-camera-recording.patch",
      ["media/libmediaplayerservice/StagefrightRecorder.cpp",
        "media/libstagefright/CameraSource.cpp", "media/ndk/NdkImage.cpp"], by decide⟩,
    ⟨"frameworks/base", kirin930 "frameworks/base/Hardware-bitmaps-support-workaround.patch",
      ["core/jni/android/graphics/Bitmap.cpp", "core/jni/android/graphics/BitmapFactory.cpp",
        "graphics/java/android/graphics/Bitmap.java", "libs/hwui/hwui/Bitmap.cpp",
        "libs/hwui/renderthread/OpenGLPipeline.cpp"], by decide⟩,
    ⟨"frameworks/base", "patches/frameworks/base/packageinstaller-webview-compat.patch",
      ["services/core/java/com/android/server/pm/PackageInstallerSession.java",
        "services/core/java/com/android/server/webkit/SystemImpl.java"], by decide⟩,
    ⟨"frameworks/base", "patches/frameworks/base/gnss-geofence-native-timeout.patch",
      ["services/core/java/com/android/server/location/GnssGeofenceProvider.java"], by decide⟩,
    ⟨"frameworks/base", "patches/frameworks/base/legacy-mozart-runtime-compat.patch",
      ["media/jni/android_media_Utils.cpp",
        "services/core/java/com/android/server/policy/PhoneWindowManager.java"], by decide⟩,
    ⟨"frameworks/native", "patches/frameworks/native/surfaceflinger-powerdown-lcd-on-off.patch",
      ["services/surfaceflinger/SurfaceFlinger.cpp"], by decide⟩,
    ⟨"frameworks/native", "patches/frameworks/native/legacy-huawei-camera-abi.patch",
      ["libs/ui/Gralloc2.cpp", "libs/ui/GraphicBufferMapper.cpp",
        "libs/ui/include/ui/GraphicBufferMapper.h"], by decide⟩,
    ⟨"hardware/broadcom/wlan",
      kirin930 "hardware/broadcom/wlan/WifiHAL-Do-not-error-check-on-initialization.patch",
      ["bcmdhd/wifi_hal/wifi_hal.cpp"], by decide⟩,
    ⟨"hardware/interfaces",
      kirin930 "hardware/interfaces/Audio-skip-setMasterVolume-if-not-implement.patch",
      ["audio/core/all-versions/default/include/core/all-versions/default/Device.impl.h",
        "audio/core/all-versions/default/include/core/all-versions/default/PrimaryDevice.impl.h"],
      by decide⟩,
    ⟨"hardware/interfaces", "patches/hardware/interfaces/legacy-private-sensor-type-compat.patch",
      ["sensors/1.0/default/convert.cpp"], by decide⟩,
    ⟨"hardware/interfaces",
      "patches/hardware/interfaces/hwc2onfbadapter-hisi-dss-overlay-fallback.patch",
      ["graphics/composer/2.1/utils/hwc2onfbadapter/Android.bp",
        "graphics/composer/2.1/utils/hwc2onfbadapter/HWC2OnFbAdapter.cpp",
        "graphics/composer/2.1/utils/hwc2onfbadapter/include/hwc2onfbadapter/HWC2OnFbAdapter.h"],
      by decide⟩,
    ⟨"hardware/interfaces", "patches/hardware/interfaces/legacy-huawei-camera-hal.patch",
      ["camera/common/1.0/default/CameraModule.cpp",
        "camera/device/3.2/default/CameraDevice.cpp",
        "camera/device/3.2/default/CameraDeviceSession.cpp",
        "camera/device/3.2/default/CameraDeviceSession.h",
        "camera/provider/2.4/default/CameraProvider.cpp",
        "camera/provider/2.4/default/android.hardware.camera.provider@2.4-service.rc",
        "camera/provider/2.4/default/service.cpp"], by decide⟩,
    ⟨"hardware/interfaces",
      "patches/hardware/interfaces/health-board-battery-property-hook.patch",
      ["health/2.0/default/Health.cpp"], by decide⟩,
    ⟨"kernel/huawei/mozart", "patches/kernel/huawei/mozart/disable-debug-info.patch",
      ["arch/arm64/configs/lineage_mozart_defconfig"], by decide⟩,
    ⟨"kernel/huawei/mozart", "patches/kernel/huawei/mozart/arm64-nt-arm-system-call-regset.patch",
      ["arch/arm64/kernel/ptrace.c", "include/uapi/linux/elf.h"], by decide⟩,
    ⟨"kernel/huawei/mozart", "patches/kernel/huawei/mozart/legacy-mozart-b217-runtime.patch",
      ["drivers/gpu/arm/Kconfig", "drivers/gpu/arm/Makefile", "drivers/hisi/rdr/rdr_dump.c",
        "fs/proc/post-fs-data.c"], by decide⟩,
    ⟨"kernel/huawei/mozart",
      "patches/kernel/huawei/mozart/cpufreq-keep-scaling-min-freq-writable.patch",
      ["drivers/cpufreq/cpufreq.c", "include/linux/cpufreq.h"], by decide⟩,
    ⟨"packages/apps/Camera2", "patches/packages/apps/Camera2/legacy-mozart-camera-behavior.patch",
      ["AndroidManifest.xml", "src/com/android/camera/VideoModule.java",
        "src/com/android/camera/one/config/OneCameraFeatureConfigCreator.java",
        "src/com/android/camera/processing/ProcessingService.java",
        "src_pd/com/android/camera/util/GservicesHelper.java"], by decide⟩,
    ⟨"system/bt", kirin930 "system/bt/Hci-dont-crash-if-some-checks-fail.patch",
      ["hci/src/hci_packet_parser.cc"], by decide⟩,
    ⟨"system/core", kirin930 "system/core/Support-mkbootimg-0xffb88000-as-tags-offset.patch",
      ["mkbootimg/mkbootimg"], by decide⟩,
    ⟨"system/core", "patches/system/core/init-user-permissive-selinux.patch",
      ["init/Android.bp", "init/Android.mk"], by decide⟩]

/-! ### The makefile of the vendor repository -/

/-- A line that copies a file of the vendor tree to the system image. -/
def copyLine (src dst : String) : String :=
  "    $(VENDOR_PATH)/" ++ src ++ ":$(TARGET_COPY_OUT_SYSTEM)/" ++ dst ++ " \\"

def sameLine (path : String) : String := copyLine path path

/-- The libraries that are copied to `vendor` as well. -/
def vendorLines (lib : String) : List String :=
  ["hw/copybit.hi3635.so", "hw/gralloc.hi3635.so", "hw/memtrack.hi3635.so", "libion.so",
    "libomx_vxd.so", "libomx_vxe.so", "libstagefrighthw.so", "libstlport.so", "libvpp.so"].map
      fun name => copyLine (lib ++ "/" ++ name) ("vendor/" ++ lib ++ "/" ++ name)

def restorePaths : List (Hunk String) :=
  [⟨11, 11,
      (["vendor/lib64/libbt-vendor.so", "vendor/lib64/hw/sensorcaps.hi3635.so",
          "vendor/lib64/egl/libGLES_mali.so"].map fun p => .keep (sameLine p)) ++
        (vendorLines "lib64").map .insert ++
        (["vendor/lib64/sensorhub.hi3635.so", "vendor/lib/hw/sensorcaps.hi3635.so",
          "vendor/lib/egl/libGLES_mali.so"].map fun p => .keep (sameLine p)) ++
        (vendorLines "lib").map .insert ++
        (["vendor/firmware/nvram4339_hw.txt", "vendor/firmware/fw_bcm4339_hw.bin",
          "vendor/firmware/dhd_preinit_config.txt"].map fun p => .keep (sameLine p))⟩,
    ⟨33, 51,
      (["lib64/libaudio_custom.so", "lib64/libaes.so", "lib64/hw/flp.hi3635.so"].map
          fun p => .keep (sameLine p)) ++
        [.insert (sameLine "lib64/hw/copybit.hi3635.so")] ++
        (["lib64/hw/memtrack.hi3635.so", "lib64/hw/gralloc.hi3635.so",
          "lib64/hw/audio.primary.hi3635.so"].map fun p => .keep (sameLine p))⟩,
    ⟨57, 76,
      (["lib/libbalong_audio_ril.so", "lib/libaudio_custom.so", "lib/libaes.so"].map
          fun p => .keep (sameLine p)) ++
        [.insert (sameLine "lib/hw/copybit.hi3635.so")] ++
        (["lib/hw/memtrack.hi3635.so", "lib/hw/gralloc.hi3635.so",
          "lib/hw/audio.primary.hi3635.so"].map fun p => .keep (sameLine p))⟩]

def preserveHelper : Change String where
  oldStart := 42
  newStart := 42
  lead := ["vendor/firmware/nvram4339_hw_mozart_l.txt", "vendor/firmware/fw_bcm4339_apsta_hw.bin",
    "vendor/firmware/BCM4334B0_002.001.013.1837.2355.hcd"].map sameLine
  old := [sameLine "vendor/bin/mac_addr_normalization"]
  new := [copyLine "vendor/bin/mac_addr_normalization" "vendor/bin/mac_addr_normalization_vendor"]
  trail := ["lib64/liboeminfo.so", "lib64/libtfa9895.so", "lib64/lib_nve_operation.so"].map
    sameLine

def cameraVendor : Change String where
  oldStart := 6
  newStart := 6
  lead := ["", "VENDOR_PATH := vendor/huawei/mozart/proprietary", ""]
  old := []
  new := ["$(call inherit-product, vendor/huawei/mozart/camera-vendor.mk)", ""]
  trail := ["# Blobs", "PRODUCT_COPY_FILES += \\", sameLine "vendor/lib64/libbt-vendor.so"]

def vendorRepo : String := "vendor/huawei/mozart"

def makefile : String := "mozart-vendor.mk"

def vendorStack (diffs : Contents) : List (Application String String) :=
  [⟨vendorRepo, "patches/vendor/huawei/mozart/restore-emui31-gpu-omx-vendor-paths.patch",
      ⟨[(makefile, .modify restorePaths)], by decide⟩⟩,
    ⟨vendorRepo, "patches/vendor/huawei/mozart/preserve-stock-mac-normalization-helper.patch",
      ⟨[(makefile, .modify [preserveHelper.hunk])], by decide⟩⟩,
    ⟨vendorRepo, "patches/vendor/huawei/mozart/legacy-mozart-camera-vendor.patch",
      ⟨[("camera-vendor.mk",
          diffs "patches/vendor/huawei/mozart/legacy-mozart-camera-vendor.patch"
            "camera-vendor.mk"),
        (makefile, .modify [cameraVendor.hunk])], by simp [makefile]⟩⟩]

def lineage : Listed :=
  ⟨"vendor/lineage", "patches/vendor/lineage/disable-backuptool-and-hudson-fetch.patch",
    ["config/common.mk", "vendorsetup.sh"], by decide⟩

/-- All the patches in the order of the script. -/
def stack (diffs : Contents) : List (Application String String) :=
  listed.map (Listed.application diffs) ++ vendorStack diffs ++ [lineage.application diffs]

/-- A line of each block that the patches of the makefile have to find again. -/
def makefileKnown : List String :=
  ["vendor/lib64/egl/libGLES_mali.so", "lib64/libaes.so", "lib/libaes.so",
    "lib64/liboeminfo.so"].map sameLine

def known (repo path : String) : List String :=
  if repo = vendorRepo ∧ path = makefile then makefileKnown else []

/-! ### The patches follow each other -/

/-- The names of the script, all compared at once. -/
theorem listed_names :
    (((listed ++ [lineage]).map fun l => (l.repo, l.paths)).Pairwise fun x y =>
      x.1 = y.1 → ∀ i ∈ x.2, i ∉ y.2) ∧
    (∀ repo ∈ (listed ++ [lineage]).map Listed.repo, repo ≠ vendorRepo) ∧
    ((listed.map fun l => (l.repo, l.name)) ++
      [(vendorRepo, "patches/vendor/huawei/mozart/restore-emui31-gpu-omx-vendor-paths.patch"),
        (vendorRepo, "patches/vendor/huawei/mozart/preserve-stock-mac-normalization-helper.patch"),
        (vendorRepo, "patches/vendor/huawei/mozart/legacy-mozart-camera-vendor.patch")] ++
      [(lineage.repo, lineage.name)]).Nodup := by
  decide +kernel

/-- No two of these patches are about one file. -/
theorem listed_disjoint : (listed ++ [lineage]).Pairwise fun a b =>
    a.repo = b.repo → ∀ i ∈ a.paths, i ∉ b.paths :=
  List.pairwise_map.1 listed_names.1

theorem vendorRepo_ne : ∀ l ∈ listed ++ [lineage], l.repo ≠ vendorRepo :=
  fun l hl => listed_names.2.1 l.repo (List.mem_map_of_mem hl)

theorem known_of_ne {repo path : String} (h : repo ≠ vendorRepo) : known repo path = [] := by
  simp [known, h]

/-- The lines of the hunks, all compared at once. -/
theorem makefile_lines :
    (∀ h ∈ restorePaths,
      Clear preserveHelper.lead preserveHelper.old preserveHelper.trail h.after ∧
        Clear cameraVendor.lead cameraVendor.old cameraVendor.trail h.after) ∧
    Clear cameraVendor.lead cameraVendor.old cameraVendor.trail preserveHelper.hunk.after ∧
    (∀ h ∈ restorePaths ++ [preserveHelper.hunk],
      h.reverse.Framed ∧ ∃ a ∈ makefileKnown, a ∈ h.after) ∧
    ∀ a ∈ makefileKnown, ∀ h ∈ restorePaths ++ [preserveHelper.hunk, cameraVendor.hunk],
      h.before.count a = h.after.count a := by
  decide +kernel

/-- Neither of the later changes of the makefile reaches into what the paths have left. -/
theorem restorePaths_clear : ∀ h ∈ restorePaths,
    Clear preserveHelper.lead preserveHelper.old preserveHelper.trail h.after ∧
      Clear cameraVendor.lead cameraVendor.old cameraVendor.trail h.after :=
  makefile_lines.1

theorem preserveHelper_clear :
    Clear cameraVendor.lead cameraVendor.old cameraVendor.trail preserveHelper.hunk.after :=
  makefile_lines.2.1

theorem makefile_framed : ∀ h ∈ restorePaths ++ [preserveHelper.hunk],
    h.reverse.Framed ∧ ∃ a ∈ makefileKnown, a ∈ h.after :=
  makefile_lines.2.2.1

/-- The lines of the makefile that are asked for are context only. -/
theorem makefile_count : ∀ a ∈ makefileKnown,
    ∀ h ∈ restorePaths ++ [preserveHelper.hunk, cameraVendor.hunk],
      h.before.count a = h.after.count a :=
  makefile_lines.2.2.2

theorem restorePaths_spares {c : Change String} (hlead : c.lead ≠ []) (htrail : c.trail ≠ [])
    (hclear : ∀ h ∈ restorePaths, Clear c.lead c.old c.trail h.after) :
    FileDiff.Spares makefileKnown (.modify restorePaths) (.modify [c.hunk]) :=
  ⟨fun h hh => makefile_framed h (by simp [hh]), c, rfl, hlead, htrail, hclear⟩

theorem preserveHelper_spares :
    FileDiff.Spares makefileKnown (.modify [preserveHelper.hunk])
      (.modify [cameraVendor.hunk]) :=
  ⟨fun h hh => makefile_framed h (by simp_all), cameraVendor, rfl, by simp [cameraVendor],
    by simp [cameraVendor], by simpa using preserveHelper_clear⟩

theorem known_makefile : known vendorRepo makefile = makefileKnown := by
  simp [known]

theorem known_camera : known vendorRepo "camera-vendor.mk" = [] := by
  simp [known, makefile]

theorem vendorStack_keeps (diffs : Contents) :
    ∀ a ∈ vendorStack diffs, a.patch.Keeps (known a.repo) := by
  have hmodify : ∀ hs : List (Hunk String),
      (∀ h ∈ hs, h ∈ restorePaths ++ [preserveHelper.hunk, cameraVendor.hunk]) →
        (FileDiff.modify hs).Keeps (known vendorRepo makefile) := by
    intro hs hmem a ha h hh
    rw [known_makefile] at ha
    exact makefile_count a ha h (hmem h hh)
  intro a ha x hx
  simp only [vendorStack, List.mem_cons, List.not_mem_nil, or_false] at ha
  rcases ha with rfl | rfl | rfl
  · obtain rfl := List.mem_singleton.1 hx
    exact hmodify _ fun h hh => by simp [hh]
  · obtain rfl := List.mem_singleton.1 hx
    exact hmodify _ fun h hh => by simp_all
  · simp only [List.mem_cons, List.not_mem_nil, or_false] at hx
    rcases hx with rfl | rfl
    · dsimp only
      rw [known_camera]
      exact FileDiff.keeps_nil _
    · exact hmodify _ fun h hh => by simp_all

theorem vendorStack_spares (diffs : Contents) : (vendorStack diffs).Pairwise fun a b =>
    a.repo = b.repo → a.patch.Spares (known a.repo) b.patch := by
  have hcamera : makefile ≠ "camera-vendor.mk" := by decide
  refine .cons ?_ (.cons ?_ (List.pairwise_singleton _ _))
  · simp only [List.forall_mem_cons, Patch.Spares, known_makefile, hcamera, List.not_mem_nil,
      false_implies, implies_true, and_true, forall_true_left, true_and]
    exact ⟨restorePaths_spares (by simp [preserveHelper]) (by simp [preserveHelper])
        fun h hh => (restorePaths_clear h hh).1,
      restorePaths_spares (by simp [cameraVendor]) (by simp [cameraVendor])
        fun h hh => (restorePaths_clear h hh).2⟩
  · simp only [List.forall_mem_cons, Patch.Spares, known_makefile, hcamera, List.not_mem_nil,
      false_implies, implies_true, and_true, forall_true_left, true_and]
    exact preserveHelper_spares

theorem Listed.spares (diffs : Contents) {a b : Listed}
    (h : a.repo = b.repo → ∀ i ∈ a.paths, i ∉ b.paths) :
    (a.application diffs).repo = (b.application diffs).repo →
      (a.application diffs).patch.Spares (known a.repo) (b.application diffs).patch := by
  intro hrepo
  refine Patch.spares_of_disjoint ?_
  simpa [application, Function.comp_def] using h hrepo

/-- The patches of the script follow each other, whatever they say of the other files. -/
theorem stack_compatible (diffs : Contents) : Compatible known (stack diffs) := by
  have hrepo : ∀ a ∈ vendorStack diffs, a.repo = vendorRepo := by
    simp [vendorStack]
  refine ⟨fun a ha => ?_, ?_⟩
  · have hlisted : ∀ l ∈ listed ++ [lineage],
        (l.application diffs).patch.Keeps (known l.repo) := by
      intro l hl x _
      rw [known_of_ne (vendorRepo_ne l hl)]
      exact FileDiff.keeps_nil _
    simp only [stack, List.mem_append, List.mem_map, List.mem_singleton] at ha
    rcases ha with (⟨l, hl, rfl⟩ | ha) | rfl
    · exact hlisted l (by simp [hl])
    · exact vendorStack_keeps diffs a ha
    · exact hlisted lineage (by simp)
  · obtain ⟨hlisted, -, hlast⟩ := List.pairwise_append.1 listed_disjoint
    refine List.pairwise_append.2 ⟨List.pairwise_append.2 ⟨?_, vendorStack_spares diffs, ?_⟩,
      List.pairwise_singleton _ _, ?_⟩
    · exact List.pairwise_map.2 (hlisted.imp fun h => Listed.spares diffs h)
    · intro a ha b hb heq
      obtain ⟨l, hl, rfl⟩ := List.mem_map.1 ha
      exact (vendorRepo_ne l (by simp [hl]) (heq.trans (hrepo b hb))).elim
    · intro a ha b hb
      obtain rfl := List.mem_singleton.1 hb
      rcases List.mem_append.1 ha with ha | ha
      · obtain ⟨l, hl, rfl⟩ := List.mem_map.1 ha
        exact Listed.spares diffs (hlast l hl lineage (by simp))
      · intro heq
        exact (vendorRepo_ne lineage (by simp) (heq.symm.trans (hrepo a ha))).elim

theorem stack_nodup_keys (diffs : Contents) :
    ((stack diffs).map Application.key).Nodup := by
  have hkeys : (stack diffs).map Application.key =
      (listed.map fun l => (l.repo, l.name)) ++
        (vendorStack diffs).map Application.key ++ [(lineage.repo, lineage.name)] := by
    simp [stack, Application.key, Listed.application, Function.comp_def]
  rw [hkeys]
  exact listed_names.2.2

/-! ### Runs of the script -/

/-- A makefile in which the hunks are found at their lines. -/
def stockMakefile : List String :=
  List.replicate 5 "#" ++ cameraVendor.lead ++ ["# Blobs", "PRODUCT_COPY_FILES += \\"] ++
    (restorePaths.take 1).flatMap Hunk.before ++ List.replicate 4 "#" ++
    preserveHelper.hunk.before ++ List.replicate 2 "#" ++
    ((restorePaths.drop 1).take 1).flatMap Hunk.before ++ List.replicate 18 "#" ++
    (restorePaths.drop 2).flatMap Hunk.before

/-- A checkout with the makefile, to which the patches add their other files. -/
def freshCheckout : Repositories String String := fun repo =>
  some fun path => if repo = vendorRepo ∧ path = makefile then some stockMakefile else none

def addedFiles : Contents := fun name _ => .create [name]

/-- The lines that are asked for stand there once, and all the patches apply. -/
theorem freshCheckout_runs : (∀ a ∈ makefileKnown, stockMakefile.count a = 1) ∧
    (((script (applyOnce leftmost) (output leftmost)).run ⟨freshCheckout, none⟩
      (stack addedFiles)).map fun q => q.1.stopped) = some none := by
  decide +kernel

theorem freshCheckout_known : AllKnown known freshCheckout := by
  intro repo t ht path f hf a ha
  obtain rfl := Option.some.inj ht
  dsimp only at hf
  split_ifs at hf with hmake
  · obtain rfl := Option.some.inj hf
    rw [known, if_pos hmake] at ha
    exact freshCheckout_runs.1 a ha
  · cases hf

section Runs

variable {apply : Applier String} {r t : Repositories String String}

/-- When all the patches have been applied, the script leaves the checkout as it is, and
says of each patch that it is applied already. -/
theorem stack_rerun (happly : apply.IsLawful) (hr : AllKnown known r) (diffs : Contents)
    {os : List String}
    (hrun : (script (applyOnce apply) (output apply)).run ⟨r, none⟩ (stack diffs) =
      some (⟨t, none⟩, os)) :
    (script (applyOnce apply) (output apply)).run ⟨t, none⟩ (stack diffs) =
      some (⟨t, none⟩,
        (stack diffs).map fun a => "skip: already applied: " ++ a.repo ++ "/" ++ a.name) := by
  obtain ⟨os', hrun'⟩ := script_run_log (written apply) hrun
  have hresumable := (stack_compatible diffs).resumable happly
  have hsettled := (hresumable.settled hr hrun').2
  rw [script_run_settled hsettled, List.map_eq_flatMap]
  refine congrArg (fun os => some (_, os)) (List.flatMap_congr fun a ha => ?_)
  exact output_of_settled happly (hsettled a ha)

theorem stack_rerun_fresh : ∃ t os,
    (script (applyOnce leftmost) (output leftmost)).run ⟨freshCheckout, none⟩
        (stack addedFiles) = some (⟨t, none⟩, os) ∧
      (script (applyOnce leftmost) (output leftmost)).run ⟨t, none⟩ (stack addedFiles) =
        some (⟨t, none⟩, (stack addedFiles).map fun a =>
          "skip: already applied: " ++ a.repo ++ "/" ++ a.name) := by
  obtain ⟨⟨⟨t, stopped⟩, os⟩, hrun, hstopped⟩ :=
    Option.map_eq_some_iff.1 freshCheckout_runs.2
  obtain rfl : stopped = none := hstopped
  exact ⟨t, os, hrun, stack_rerun leftmost_isLawful freshCheckout_known addedFiles hrun⟩

/-- However often the script has been interrupted, or has stopped, no patch has been written
twice, and to run it to its end gives what one run from the beginning would have given. -/
theorem stack_attempts (happly : apply.IsLawful) (hr : AllKnown known r) (diffs : Contents)
    {ks : List ℕ} {p : Progress (Repositories String String) ℕ}
    {os : List (String × String)}
    (hrun : (attempt (applyOnce apply) (written apply) (stack diffs)).run ⟨r, none⟩ ks =
      some (p, os)) :
    os.Nodup ∧ ∃ q os',
      (script (applyOnce apply) (written apply)).run ⟨p.state, none⟩ (stack diffs) =
        some (q, os') ∧
      (script (applyOnce apply) (written apply)).run ⟨r, none⟩ (stack diffs) =
        some (q, os ++ os') := by
  have hcompatible := stack_compatible diffs
  exact ⟨hcompatible.nodup_written happly hr (stack_nodup_keys diffs) hrun,
    (hcompatible.resumable happly).run_after_attempts hr hrun⟩

/-- Interrupted after two patches, and after twenty. -/
theorem stack_attempts_fresh : ∃ p os q os',
    (attempt (applyOnce leftmost) (written leftmost) (stack addedFiles)).run
        ⟨freshCheckout, none⟩ [2, 20] = some (p, os) ∧ os.Nodup ∧
      (script (applyOnce leftmost) (written leftmost)).run ⟨p.state, none⟩
        (stack addedFiles) = some (q, os') ∧
      (script (applyOnce leftmost) (written leftmost)).run ⟨freshCheckout, none⟩
        (stack addedFiles) = some (q, os ++ os') := by
  obtain ⟨⟨p, os⟩, hrun⟩ := Option.isSome_iff_exists.1
    (Machine.run_isSome (m := attempt (applyOnce leftmost) (written leftmost)
      (stack addedFiles)) (fun p k => script_run_isSome _ _ _ _) ⟨freshCheckout, none⟩ [2, 20])
  obtain ⟨hnodup, q, os', hagain, hdirect⟩ :=
    stack_attempts leftmost_isLawful freshCheckout_known addedFiles hrun
  exact ⟨p, os, q, os', hrun, hnodup, hagain, hdirect⟩

end Runs

end MozartLineage.Patching
