import MozartLineage.Transition.Run
import Mathlib.Data.Int.Notation
import Mathlib.Logic.Function.Basic

/-!
# The metadata object of the legacy camera HAL

The object has a pointer to a metadata buffer and a lock flag. A step is one call of an
exported function on it, or what a caller does with a buffer that is not the object's.

The metadata library works on the content of a buffer. `Library` is what the object
uses of it; an action that allocates says which address the allocator gives, if any, and
an update what memory holds from the data pointer on.
-/

namespace MozartLineage.Metadata

open Transition

abbrev Address := UInt32

def ok : ℤ := 0

def nameNotFound : ℤ := -2

def noMemory : ℤ := -12

def badValue : ℤ := -22

def invalidOperation : ℤ := -38

/-- An entry of a buffer, with the bytes that its data pointer leads to. -/
structure Entry where
  index : UInt32
  tag : UInt32
  type : ℤ
  count : UInt32
  data : List UInt8
  deriving DecidableEq

def Entry.empty : Entry := ⟨0, 0, 0, 0, []⟩

/-- The functions of the metadata library, on contents `β` of buffers. -/
structure Library (β : Type*) where
  /-- the type of a tag, negative for an unknown one -/
  tagType : UInt32 → Option β → ℤ
  entryCount : β → UInt32
  entryCapacity : β → UInt32
  dataCount : β → UInt32
  dataCapacity : β → UInt32
  /-- the size of the whole buffer in bytes -/
  size : β → UInt32
  /-- a new buffer with these capacities -/
  allocate : UInt32 → UInt32 → β
  /-- what so many elements of a type add to the data of a buffer -/
  entryDataSize : ℤ → UInt32 → UInt32
  /-- the bytes that are read for so many elements of a type -/
  payloadSize : ℤ → UInt32 → ℕ
  append : β → β → ℤ × β
  /-- with what is left in a zeroed entry -/
  find : β → UInt32 → ℤ × Entry
  add : β → UInt32 → List UInt8 → UInt32 → ℤ × β
  update : β → UInt32 → List UInt8 → UInt32 → ℤ × β
  /-- what is found where there is no buffer -/
  garbage : β

/-- The element types of the four entry points for updates. -/
inductive Element where
  | u8
  | i32
  | float
  | i64
  deriving DecidableEq

inductive Call where
  | clear
  | release
  | acquire (buffer : Option Address)
  | getAndLock
  | unlock (buffer : Option Address)
  | find (tag : UInt32)
  | update (element : Element) (tag : UInt32) (data : Address) (count : UInt32)
      (bytes : List UInt8) (fresh : Option Address)
  deriving DecidableEq

inductive Action (β : Type*) where
  | ctor
  | dtor
  | call (c : Call)
  /-- a caller allocates, frees or fills a buffer -/
  | allocate (buffer : Address) (content : β)
  | free (buffer : Address)
  | write (buffer : Address) (content : β)

inductive Result where
  | void
  | status (status : ℤ)
  | buffer (buffer : Option Address)
  | entry (entry : Entry)
  deriving DecidableEq

inductive Event where
  /-- the object comes to own the buffer -/
  | owned (buffer : Address)
  | freed (buffer : Address) (size : UInt32)
  /-- the buffer is handed back to the caller -/
  | released (buffer : Address)
  /-- a function of the library works on the buffer -/
  | used (buffer : Address)
  /-- so many bytes of the caller's data are read -/
  | read (data : Address) (size : ℕ)
  | returned (result : Result)
  deriving DecidableEq

/-- The buffers in memory and the object, which is `alive` from its constructor to its
destructor. -/
structure State (β : Type*) where
  heap : Address → Option β
  buffer : Option Address
  locked : Bool
  alive : Bool

/-- What a function returns, the state it leaves and what it has done. -/
structure Outcome (β τ : Type*) where
  result : τ
  state : State β
  events : List Event

variable {β : Type*}

namespace Library

variable (lib : Library β)

/-- The capacities that `resizeIfNeeded` is out for. -/
def newEntryCapacity (c : β) (extraEntries : UInt32) : UInt32 :=
  if lib.entryCount c + extraEntries > lib.entryCapacity c then
    (lib.entryCount c + extraEntries) * 2
  else lib.entryCapacity c

def newDataCapacity (c : β) (extraData : UInt32) : UInt32 :=
  if lib.dataCount c + extraData > lib.dataCapacity c then
    (lib.dataCount c + extraData) * 2
  else lib.dataCapacity c

/-- There is room for the extra entries and data. -/
def Fits (c : β) (extraEntries extraData : UInt32) : Prop :=
  lib.newEntryCapacity c extraEntries = lib.entryCapacity c ∧
    lib.newDataCapacity c extraData = lib.dataCapacity c

instance (c : β) (extraEntries extraData : UInt32) :
    Decidable (lib.Fits c extraEntries extraData) := inferInstanceAs (Decidable (_ ∧ _))

/-- The larger buffer, with what the old one holds. -/
def grow (c : β) (extraEntries extraData : UInt32) : ℤ × β :=
  lib.append (lib.allocate (lib.newEntryCapacity c extraEntries)
    (lib.newDataCapacity c extraData)) c

/-- How much is read of the data of an update. -/
def readSize (c : β) (tag : UInt32) (type : ℤ) (count : UInt32) : ℕ :=
  if (lib.find c tag).1 = nameNotFound then lib.payloadSize type count
  else if (lib.find c tag).1 = ok then lib.payloadSize (lib.find c tag).2.type count
  else 0

end Library

namespace State

variable (lib : Library β) (s : State β)

def content (b : Address) : β := (s.heap b).getD lib.garbage

def set (b : Address) (c : Option β) : State β :=
  { s with heap := Function.update s.heap b c }

/-- The type of a tag, which may depend on the buffer. -/
def typeOf (tag : UInt32) : ℤ := lib.tagType tag (s.buffer.map (s.content lib))

/-- The library looks at the buffer, if there is one. -/
def looks : List Event := s.buffer.toList.map Event.used

def resizeIfNeeded (extraEntries extraData : UInt32) (fresh : Option Address) :
    Outcome β ℤ :=
  match s.buffer, fresh with
  | none, none => ⟨noMemory, s, []⟩
  | none, some r =>
      ⟨ok, { s.set r (some (lib.allocate (extraEntries * 2) (extraData * 2))) with
        buffer := some r }, [.owned r]⟩
  | some b, fresh =>
      let c := s.content lib b
      if lib.Fits c extraEntries extraData then ⟨ok, s, [.used b]⟩
      else
        match fresh with
        | none => ⟨noMemory, s, [.used b]⟩
        | some r =>
            let grown := lib.grow c extraEntries extraData
            if grown.1 ≠ ok then
              ⟨grown.1, s, [.used b, .owned r, .used r, .used b, .freed r (lib.size grown.2)]⟩
            else
              ⟨ok, { (s.set r (some grown.2)).set b none with buffer := some r },
                [.used b, .owned r, .used r, .used b, .freed b (lib.size c)]⟩

/-- The pointer is taken for one into the object's own buffer. -/
def Aliases (data : Address) : Prop :=
  ∃ b ∈ s.buffer, data > b ∧ data < b + lib.size (s.content lib b)

instance (data : Address) : Decidable (s.Aliases lib data) :=
  Option.decidableExistsMem s.buffer

/-- The entry is added, or changed if there is one. -/
def store (b : Address) (tag : UInt32) (type : ℤ) (data : Address) (count : UInt32)
    (bytes : List UInt8) : Outcome β ℤ :=
  let c := s.content lib b
  let found := lib.find c tag
  let size := lib.readSize c tag type count
  if found.1 = nameNotFound then
    let added := lib.add c tag (bytes.take size) count
    ⟨added.1, s.set b (some added.2), [.used b, .used b, .read data size]⟩
  else if found.1 = ok then
    let updated := lib.update c found.2.index (bytes.take size) count
    ⟨updated.1, s.set b (some updated.2), [.used b, .used b, .read data size]⟩
  else ⟨found.1, s, [.used b]⟩

def updateImpl (tag : UInt32) (data : Address) (count : UInt32) (bytes : List UInt8)
    (fresh : Option Address) : Outcome β ℤ :=
  let type := s.typeOf lib tag
  if s.locked then ⟨invalidOperation, s, []⟩
  else if type < 0 then ⟨badValue, s, s.looks⟩
  else if s.Aliases lib data then ⟨invalidOperation, s, s.looks⟩
  else
    let resized := s.resizeIfNeeded lib 1 (lib.entryDataSize type count) fresh
    if resized.result ≠ ok then
      ⟨resized.result, resized.state, s.looks ++ resized.events⟩
    else
      match resized.state.buffer with
      -- not taken: a resize that succeeds leaves a buffer
      | none => ⟨resized.result, resized.state, s.looks ++ resized.events⟩
      | some b =>
          let stored := resized.state.store lib b tag type data count bytes
          ⟨stored.result, stored.state, s.looks ++ resized.events ++ stored.events⟩

def clear : Outcome β Unit :=
  match s.locked, s.buffer with
  | false, some b =>
      ⟨(), { s.set b none with buffer := none }, [.freed b (lib.size (s.content lib b))]⟩
  | _, _ => ⟨(), s, []⟩

def release : Outcome β (Option Address) :=
  if s.locked then ⟨none, s, []⟩
  else ⟨s.buffer, { s with buffer := none }, s.buffer.toList.map Event.released⟩

def acquire (buffer : Option Address) : Outcome β Unit :=
  if s.locked then ⟨(), s, []⟩
  else
    let cleared := s.clear lib
    ⟨(), { cleared.state with buffer := buffer },
      cleared.events ++ buffer.toList.map Event.owned⟩

def getAndLock : Outcome β (Option Address) := ⟨s.buffer, { s with locked := true }, []⟩

def unlock (buffer : Option Address) : Outcome β ℤ :=
  if s.locked = false then ⟨invalidOperation, s, []⟩
  else if buffer ≠ s.buffer then ⟨badValue, s, []⟩
  else ⟨ok, { s with locked := false }, []⟩

def find (tag : UInt32) : Outcome β Entry :=
  match s.locked, s.buffer with
  | false, some b => ⟨(lib.find (s.content lib b) tag).2, s, [.used b]⟩
  | _, _ => ⟨.empty, s, []⟩

end State

/-- The end of a call. -/
def Outcome.returns {τ : Type*} (o : Outcome β τ) (result : τ → Result) :
    State β × List Event := (o.state, o.events ++ [.returned (result o.result)])

namespace State

variable (lib : Library β) (s : State β)

def call : Call → State β × List Event
  | .clear => (s.clear lib).returns fun _ => .void
  | .release => s.release.returns .buffer
  | .acquire buffer => (s.acquire lib buffer).returns fun _ => .void
  | .getAndLock => s.getAndLock.returns .buffer
  | .unlock buffer => (s.unlock buffer).returns .status
  | .find tag => (s.find lib tag).returns .entry
  | .update _ tag data count bytes fresh =>
      (s.updateImpl lib tag data count bytes fresh).returns .status

/-- A buffer that exists and is not the object's. -/
def Foreign (b : Address) : Prop := s.buffer ≠ some b ∧ (s.heap b).isSome

instance (b : Address) : Decidable (s.Foreign b) := inferInstanceAs (Decidable (_ ∧ _))

/-- A caller passes a buffer that is not the object's, and the allocator gives an
address that is free. -/
def Permits : Call → Prop
  | .acquire buffer => ∀ b ∈ buffer, s.Foreign b
  | .update _ _ _ _ _ fresh => ∀ r ∈ fresh, s.heap r = none
  | _ => True

instance (c : Call) : Decidable (s.Permits c) :=
  match c with
  | .acquire buffer => Option.decidableForallMem buffer
  | .update _ _ _ _ _ fresh => Option.decidableForallMem fresh
  | .clear | .release | .getAndLock | .unlock _ | .find _ => isTrue trivial

def ctor : State β := { s with buffer := none, locked := false, alive := true }

def dtor : State β × List Event :=
  let cleared := { s with locked := false }.clear lib
  ({ cleared.state with alive := false }, cleared.events ++ [.returned .void])

end State

def step (lib : Library β) : Machine (State β) (Action β) Event
  | s, .ctor => if s.alive then none else some (s.ctor, [.returned .void])
  | s, .dtor => if s.alive then some (s.dtor lib) else none
  | s, .call c => if s.alive ∧ s.Permits c then some (s.call lib c) else none
  | s, .allocate b c => if s.heap b = none then some (s.set b (some c), []) else none
  | s, .free b => if s.Foreign b then some (s.set b none, []) else none
  | s, .write b c => if s.Foreign b then some (s.set b (some c), []) else none

/-- Everything that a step can be. -/
inductive Step (lib : Library β) (s : State β) : Action β → State β × List Event → Prop where
  | ctor (hdead : s.alive = false) : Step lib s .ctor (s.ctor, [.returned .void])
  | dtor (halive : s.alive) : Step lib s .dtor (s.dtor lib)
  | call {c} (halive : s.alive) (hc : s.Permits c) : Step lib s (.call c) (s.call lib c)
  | allocate {b c} (hb : s.heap b = none) :
      Step lib s (.allocate b c) (s.set b (some c), [])
  | free {b} (hb : s.Foreign b) : Step lib s (.free b) (s.set b none, [])
  | write {b c} (hb : s.Foreign b) : Step lib s (.write b c) (s.set b (some c), [])

theorem step_spec {lib : Library β} {s : State β} {a : Action β} {p : State β × List Event}
    (h : step lib s a = some p) : Step lib s a p := by
  cases a with
  | ctor =>
      simp only [step] at h
      split at h <;> cases h
      exact .ctor (by simpa using ‹¬ s.alive›)
  | dtor =>
      simp only [step] at h
      split at h <;> cases h
      exact .dtor ‹_›
  | call c =>
      simp only [step] at h
      split at h <;> cases h
      exact .call (And.left ‹_›) (And.right ‹_›)
  | allocate b c =>
      simp only [step] at h
      split at h <;> cases h
      exact .allocate ‹_›
  | free b =>
      simp only [step] at h
      split at h <;> cases h
      exact .free ‹_›
  | write b c =>
      simp only [step] at h
      split at h <;> cases h
      exact .write ‹_›

/-- No object and no buffer yet. -/
def init : State β := ⟨fun _ => none, none, false, false⟩

/-- Everything that `resizeIfNeeded` can come to. -/
inductive Resized (lib : Library β) (s : State β) (extraEntries extraData : UInt32) :
    Option Address → Outcome β ℤ → Prop where
  | notAllocated (hb : s.buffer = none) :
      Resized lib s extraEntries extraData none ⟨noMemory, s, []⟩
  | allocated {r} (hb : s.buffer = none) :
      Resized lib s extraEntries extraData (some r)
        ⟨ok, { s.set r (some (lib.allocate (extraEntries * 2) (extraData * 2))) with
          buffer := some r }, [.owned r]⟩
  | fits {fresh b} (hb : s.buffer = some b)
      (hfits : lib.Fits (s.content lib b) extraEntries extraData) :
      Resized lib s extraEntries extraData fresh ⟨ok, s, [.used b]⟩
  | notReplaced {b} (hb : s.buffer = some b)
      (hfits : ¬ lib.Fits (s.content lib b) extraEntries extraData) :
      Resized lib s extraEntries extraData none ⟨noMemory, s, [.used b]⟩
  | appendFails {r b grown} (hb : s.buffer = some b)
      (hfits : ¬ lib.Fits (s.content lib b) extraEntries extraData)
      (hgrown : grown = lib.grow (s.content lib b) extraEntries extraData)
      (hfails : grown.1 ≠ ok) :
      Resized lib s extraEntries extraData (some r)
        ⟨grown.1, s, [.used b, .owned r, .used r, .used b, .freed r (lib.size grown.2)]⟩
  | replaced {r b grown} (hb : s.buffer = some b)
      (hfits : ¬ lib.Fits (s.content lib b) extraEntries extraData)
      (hgrown : grown = lib.grow (s.content lib b) extraEntries extraData)
      (hok : grown.1 = ok) :
      Resized lib s extraEntries extraData (some r)
        ⟨ok, { (s.set r (some grown.2)).set b none with buffer := some r },
          [.used b, .owned r, .used r, .used b, .freed b (lib.size (s.content lib b))]⟩

theorem resizeIfNeeded_spec (lib : Library β) (s : State β) (extraEntries extraData : UInt32)
    (fresh : Option Address) :
    Resized lib s extraEntries extraData fresh
      (s.resizeIfNeeded lib extraEntries extraData fresh) := by
  unfold State.resizeIfNeeded
  cases hb : s.buffer with
  | none =>
      cases fresh with
      | none => exact .notAllocated hb
      | some r => exact .allocated hb
  | some b =>
      dsimp only
      by_cases hfits : lib.Fits (s.content lib b) extraEntries extraData
      · rw [if_pos hfits]
        exact .fits hb hfits
      · rw [if_neg hfits]
        cases fresh with
        | none => exact .notReplaced hb hfits
        | some r =>
            dsimp only
            split_ifs with hgrow
            · exact .appendFails hb hfits rfl hgrow
            · exact .replaced hb hfits rfl (not_not.1 hgrow)

end MozartLineage.Metadata
