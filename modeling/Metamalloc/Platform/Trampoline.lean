import Metamalloc.Library.MemoryWindows
import Mathlib.Data.List.TakeWhile

/-! Trampolines: the first bytes of a function replaced by a jump to another function, and put back later. The
memory API of the system is a parameter. -/
namespace Metamalloc.Platform
open Library.ByteMemory Library.SavedCells Library.MemoryWindows

inductive Protection where
  | noAccess
  | readOnly
  | readWrite
  | writeCopy
  | execute
  | executeRead
  | executeReadWrite
  | executeWriteCopy
  deriving DecidableEq

namespace Protection

def readable : Protection → Bool
  | noAccess | execute => false
  | _ => true

def writable : Protection → Bool
  | readWrite | writeCopy | executeReadWrite | executeWriteCopy => true
  | _ => false

end Protection

structure MemoryBasicInformation where
  baseAddress : Nat
  regionSize : Nat
  protect : Protection

/-- The bytes of a process, and the protection of the page that each lies on. -/
structure Process where
  bytes : Mem
  protection : Nat → Protection

structure WindowsMemory where
  virtualQuery : (Nat → Protection) → Nat → MemoryBasicInformation
  /-- Whether the protection of a region may be changed to this one. -/
  grants : MemoryBasicInformation → Protection → Bool

/-- `INSTRUCTION_SIZE`: the opcode, an offset and an address. -/
abbrev instructionSize : Nat := 14

abbrev Bytes := Fin instructionSize → UInt8

namespace Process

/-- `memcpy` out of a window of the process; there is no result where the access faults. -/
def readBytes (p : Process) (address : Nat) : Option Bytes :=
  if ∀ i < instructionSize, (p.protection (address + i)).readable then some (window instructionSize p.bytes address)
  else none

def writeBytes (p : Process) (address : Nat) (bytes : Bytes) : Option Process :=
  if ∀ i < instructionSize, (p.protection (address + i)).writable then
    some { p with bytes := put p.bytes address bytes }
  else none

def store (p : Process) (address width value : Nat) : Option Process :=
  if ∀ i < width, (p.protection (address + i)).writable then
    some { p with bytes := write p.bytes address width value }
  else none

end Process

namespace WindowsMemory
variable (w : WindowsMemory)

/-- The region gets the protection, and the information its old one, if the system grants it. -/
def virtualProtect (mbi : MemoryBasicInformation) (protect : Protection) (p : Process) :
    MemoryBasicInformation × Process :=
  if w.grants mbi protect then
    ({ mbi with protect := p.protection mbi.baseAddress },
      { p with protection := fun x =>
          if mbi.baseAddress ≤ x ∧ x < mbi.baseAddress + mbi.regionSize then protect else p.protection x })
  else (mbi, p)

def enterReadWrite (address : Nat) (p : Process) : MemoryBasicInformation × Process :=
  w.virtualProtect (w.virtualQuery p.protection address) .executeReadWrite p

def leaveReadWrite (mbi : MemoryBasicInformation) (p : Process) : Process := (w.virtualProtect mbi mbi.protect p).2

def isAddress64Bit (protection : Nat → Protection) (address : Nat) : Bool :=
  (w.virtualQuery protection address).baseAddress < 2^63

end WindowsMemory

namespace Trampoline
variable (w : WindowsMemory)

def install (original replacement : Nat) (originalBytes : Bytes) (p : Process) : Option (Bool × Bytes × Process) :=
  if w.isAddress64Bit p.protection original = false ∨ w.isAddress64Bit p.protection replacement = false then
    some (false, originalBytes, p)
  else do
    let (mbi, p) := w.enterReadWrite original p
    let originalBytes ← p.readBytes original
    let p ← p.store original 2 0x25ff
    let p ← p.store (original + 2) 4 0
    let p ← p.store (original + 6) 8 replacement
    return (true, originalBytes, w.leaveReadWrite mbi p)

def uninstall (original : Nat) (originalBytes : Bytes) (p : Process) : Option Process := do
  let (mbi, p) := w.enterReadWrite original p
  let p ← p.writeBytes original originalBytes
  return w.leaveReadWrite mbi p

end Trampoline

structure TrampolinePatch where
  name : String
  originalAddress : Nat := 0
  replacementAddress : Nat
  originalBytes : Bytes := fun _ => 0

/-- The table of the library that is linked statically. -/
def trampolinePatches (symbol : String → Nat) : List TrampolinePatch :=
  [{ name := "malloc", replacementAddress := symbol "metamalloc_malloc" },
    { name := "free", replacementAddress := symbol "metamalloc_free" },
    { name := "calloc", replacementAddress := symbol "metamalloc_calloc" },
    { name := "realloc", replacementAddress := symbol "metamalloc_realloc" },
    { name := "_aligned_malloc", replacementAddress := symbol "metamalloc_aligned_malloc" },
    { name := "_aligned_free", replacementAddress := symbol "metamalloc_aligned_free" },
    { name := "_msize", replacementAddress := symbol "metamalloc_usable_size" }]

section
variable (w : WindowsMemory)

def installEach (getProcAddress : String → Nat) :
    List TrampolinePatch → Process → Option (Bool × List TrampolinePatch × Process)
  | [], p => some (true, [], p)
  | patch :: patches, p =>
    let patch := { patch with originalAddress := getProcAddress patch.name }
    if patch.originalAddress = 0 then some (false, patch :: patches, p)
    else do
      let (success, originalBytes, p) ←
        Trampoline.install w patch.originalAddress patch.replacementAddress patch.originalBytes p
      let patch := { patch with originalBytes := originalBytes }
      if success = false then return (false, patch :: patches, p)
      else
        let (success, patches, p) ← installEach getProcAddress patches p
        return (success, patch :: patches, p)

/-- The library is its `GetProcAddress`, null for a name it does not export. -/
def installTrampolines (crtLibrary : Option (String → Nat)) (patches : List TrampolinePatch) (p : Process) :
    Option (Bool × List TrampolinePatch × Process) :=
  match crtLibrary with
  | none => some (false, patches, p)
  | some getProcAddress => installEach w getProcAddress patches p

def uninstallTrampolines : List TrampolinePatch → Process → Option Process
  | [], p => some p
  | patch :: patches, p => do
    let p ← Trampoline.uninstall w patch.originalAddress patch.originalBytes p
    uninstallTrampolines patches p

end

def signExtend32 (offset : Nat) : Nat := if offset < 2^31 then offset else offset + (2^64 - 2^32)

/-- A jump through the address that lies at an offset from the next instruction. -/
def farJumpTarget (m : Mem) (address : Nat) : Option Nat :=
  if read m address 2 = 0x25ff then
    some (read64 m ((address + 6 + signExtend32 (read m (address + 2) 4)) % 2^64))
  else none

/-- The bytes `install` leaves. -/
def trampoline (replacement : Nat) : Bytes := fun i =>
  if i.val < 2 then UInt8.ofNat (0x25ff / 256^i.val) else if i.val < 6 then 0
  else UInt8.ofNat (replacement / 256^(i.val - 6))

section
variable {m : Mem} {a x r : Nat}

theorem write_trampoline : write (write (write m a 2 0x25ff) (a + 2) 4 0) (a + 6) 8 r = put m a (trampoline r) := by
  funext x
  by_cases hx : a ≤ x ∧ x < a + 14
  · rw [put, dif_pos hx, trampoline]
    dsimp only
    by_cases h6 : a + 6 ≤ x
    · rw [if_neg (by omega), if_neg (by omega), write, if_pos (by omega), Nat.sub_sub]
    · rw [write_apply_of_lt (by omega)]
      by_cases h2 : a + 2 ≤ x
      · rw [if_neg (by omega), if_pos (by omega), write, if_pos (by omega), Nat.zero_div]
        rfl
      · rw [if_pos (by omega), write_apply_of_lt (by omega), write, if_pos (by omega)]
  · rw [put, dif_neg hx, write, if_neg (by omega), write, if_neg (by omega), write, if_neg (by omega)]

theorem farJumpTarget_of_window (h : window instructionSize m a = trampoline r) (ha : a + instructionSize ≤ 2^64)
    (hr : r < 2^64) : farJumpTarget m a = some r := by
  have hm : put m a (trampoline r) = m := by
    rw [← h]
    funext x
    by_cases hx : a ≤ x ∧ x < a + instructionSize
    · rw [put, dif_pos hx, window, Nat.add_sub_cancel' hx.1]
    · exact dif_neg hx
  rw [← write_trampoline] at hm
  have hopcode : read m a 2 = 0x25ff := by
    rw [← hm, read_write_of_disjoint (by omega), read_write_of_disjoint (by omega), read_write_same]
    rfl
  have hoffset : read m (a + 2) 4 = 0 := by
    rw [← hm, read_write_of_disjoint (by omega), read_write_same, Nat.zero_mod]
  have haddress : read64 m (a + 6) = r := by
    rw [← hm, read64, read_write_same, Nat.mod_eq_of_lt (by simpa using hr)]
  have hnext : (a + 6 + signExtend32 0) % 2^64 = a + 6 :=
    Nat.mod_eq_of_lt (Nat.lt_of_lt_of_le (Nat.add_lt_add_left (by decide) a) ha)
  rw [farJumpTarget, if_pos hopcode, hoffset, hnext, haddress]

end

/-- The system describes the region of the address, lets its protection be changed, and the bytes of a trampoline
lie in it. -/
structure WindowsMemory.Patchable (w : WindowsMemory) (protection : Nat → Protection) (a : Nat) : Prop where
  base_le : (w.virtualQuery protection a).baseAddress ≤ a
  le_end : a + instructionSize ≤
    (w.virtualQuery protection a).baseAddress + (w.virtualQuery protection a).regionSize
  end_le : (w.virtualQuery protection a).baseAddress + (w.virtualQuery protection a).regionSize ≤ 2^64
  uniform : ∀ x, (w.virtualQuery protection a).baseAddress ≤ x →
    x < (w.virtualQuery protection a).baseAddress + (w.virtualQuery protection a).regionSize →
    protection x = (w.virtualQuery protection a).protect
  grants : ∀ protect, w.grants (w.virtualQuery protection a) protect = true

section
variable {w : WindowsMemory} {p : Process} {a r : Nat} {bytes : Bytes}

namespace WindowsMemory.Patchable

theorem word (h : w.Patchable p.protection a) : a + instructionSize ≤ 2^64 := h.le_end.trans h.end_le

theorem enter (h : w.Patchable p.protection a) : ∃ mbi protection, w.enterReadWrite a p = (mbi, ⟨p.bytes, protection⟩) ∧
    (∀ x, a ≤ x → x < a + instructionSize → protection x = .executeReadWrite) ∧
    ∀ m, w.leaveReadWrite mbi ⟨m, protection⟩ = ⟨m, p.protection⟩ := by
  obtain ⟨hbase, hend, -, huniform, hgrants⟩ := h
  refine ⟨_, _, if_pos (hgrants _), fun x hx hx' => if_pos (by omega), fun m => ?_⟩
  have hprotect : p.protection (w.virtualQuery p.protection a).baseAddress =
      (w.virtualQuery p.protection a).protect := huniform _ le_rfl (by simp only [instructionSize] at hend; omega)
  rw [hprotect]
  simp only [leaveReadWrite, virtualProtect, hgrants, if_true]
  congr 1
  funext x
  by_cases hx : (w.virtualQuery p.protection a).baseAddress ≤ x ∧
      x < (w.virtualQuery p.protection a).baseAddress + (w.virtualQuery p.protection a).regionSize
  · rw [if_pos hx, huniform x hx.1 hx.2]
  · rw [if_neg hx, if_neg hx]

end WindowsMemory.Patchable

theorem install_eq (h : w.Patchable p.protection a) (ha : w.isAddress64Bit p.protection a)
    (hr : w.isAddress64Bit p.protection r) : Trampoline.install w a r bytes p =
      some (true, window instructionSize p.bytes a, ⟨put p.bytes a (trampoline r), p.protection⟩) := by
  obtain ⟨mbi, protection, henter, hwindow, hleave⟩ := h.enter
  have hstore : ∀ m b width value, a ≤ b → b + width ≤ a + 14 →
      Process.store ⟨m, protection⟩ b width value = some ⟨write m b width value, protection⟩ := by
    intro m b width value hle hle'
    refine if_pos fun i hi => ?_
    dsimp only
    rw [hwindow (b + i) (by omega) (show b + i < a + 14 by omega)]
    rfl
  have hread : Process.readBytes ⟨p.bytes, protection⟩ a = some (window instructionSize p.bytes a) := by
    refine if_pos fun i hi => ?_
    dsimp only
    rw [hwindow (a + i) (by omega) (by omega)]
    rfl
  rw [Trampoline.install, if_neg (by rw [ha, hr]; decide), henter]
  dsimp only [Option.bind_eq_bind]
  rw [hread, Option.bind_some, hstore _ _ _ _ (by omega) (by omega), Option.bind_some,
    hstore _ _ _ _ (by omega) (by omega), Option.bind_some, hstore _ _ _ _ (by omega) (by omega), Option.bind_some,
    hleave, write_trampoline]
  rfl

theorem uninstall_eq (h : w.Patchable p.protection a) :
    Trampoline.uninstall w a bytes p = some ⟨put p.bytes a bytes, p.protection⟩ := by
  obtain ⟨mbi, protection, henter, hwindow, hleave⟩ := h.enter
  have hwrite : Process.writeBytes ⟨p.bytes, protection⟩ a bytes = some ⟨put p.bytes a bytes, protection⟩ := by
    refine if_pos fun i hi => ?_
    dsimp only
    rw [hwindow (a + i) (by omega) (by omega)]
    rfl
  rw [Trampoline.uninstall, henter]
  dsimp only [Option.bind_eq_bind]
  rw [hwrite, Option.bind_some, hleave]
  rfl

end

namespace WindowsMemory
variable (w : WindowsMemory) (getProcAddress : String → Nat) (protection : Nat → Protection)

/-- The function is exported, and both addresses pass the check. -/
def installable (patch : TrampolinePatch) : Bool :=
  getProcAddress patch.name ≠ 0 && w.isAddress64Bit protection (getProcAddress patch.name) &&
    w.isAddress64Bit protection patch.replacementAddress

/-- The patches before the first that fails. -/
def installed (patches : List TrampolinePatch) : List TrampolinePatch :=
  patches.takeWhile (w.installable getProcAddress protection)

/-- Functions that can be patched, and do not overlap unless they are one. -/
structure Ready (patches : List TrampolinePatch) : Prop where
  patchable : ∀ q ∈ patches, w.Patchable protection (getProcAddress q.name)
  apart : ∀ q ∈ patches, ∀ q' ∈ patches, Apart instructionSize (getProcAddress q.name) (getProcAddress q'.name)
  word : ∀ q ∈ patches, q.replacementAddress < 2^64

end WindowsMemory

def edits (getProcAddress : String → Nat) (patches : List TrampolinePatch) : List (Nat × Bytes) :=
  patches.map fun q => (getProcAddress q.name, trampoline q.replacementAddress)

abbrev addresses (getProcAddress : String → Nat) (patches : List TrampolinePatch) : List Nat :=
  patches.map fun q => getProcAddress q.name

def TrampolinePatch.savedBytes (q : TrampolinePatch) : Nat × Bytes := (q.originalAddress, q.originalBytes)

section
variable {w : WindowsMemory} {getProcAddress : String → Nat} {patches patches' : List TrampolinePatch}
  {p p' p₁ : Process} {q : TrampolinePatch}

theorem keys_edits : keys (edits getProcAddress patches) = addresses getProcAddress patches := by
  rw [keys, edits, List.map_map]
  rfl

theorem WindowsMemory.Ready.of_cons {protection : Nat → Protection}
    (h : w.Ready getProcAddress protection (q :: patches)) : w.Ready getProcAddress protection patches where
  patchable q' hq' := h.patchable q' (List.mem_cons_of_mem _ hq')
  apart q' hq' q'' hq'' := h.apart q' (List.mem_cons_of_mem _ hq') q'' (List.mem_cons_of_mem _ hq'')
  word q' hq' := h.word q' (List.mem_cons_of_mem _ hq')

theorem WindowsMemory.Ready.apart_keys {protection : Nat → Protection}
    (h : w.Ready getProcAddress protection patches) (hq : q ∈ patches) :
    ∀ a ∈ keys (edits getProcAddress patches), Apart instructionSize (getProcAddress q.name) a := by
  rw [keys_edits, addresses, List.forall_mem_map]
  exact h.apart q hq

/-- The loop writes the trampolines of the patches before the first that fails, and saves what they cover. -/
theorem installEach_eq (h : w.Ready getProcAddress p.protection (w.installed getProcAddress p.protection patches)) :
    ∃ patches', installEach w getProcAddress patches p =
      some (patches.all (w.installable getProcAddress p.protection), patches',
        ⟨putAll (edits getProcAddress (w.installed getProcAddress p.protection patches)) p.bytes, p.protection⟩) ∧
      patches'.length = patches.length ∧
      (patches'.map TrampolinePatch.savedBytes).take (w.installed getProcAddress p.protection patches).length =
        saved (edits getProcAddress (w.installed getProcAddress p.protection patches))
          (window instructionSize p.bytes) := by
  induction patches generalizing p with
  | nil => exact ⟨[], rfl, rfl, rfl⟩
  | cons q patches ih =>
    by_cases hq : w.installable getProcAddress p.protection q
    · rw [WindowsMemory.installed, List.takeWhile_cons_of_pos hq] at h ⊢
      rw [List.all_cons, hq, Bool.true_and, installEach]
      simp only [WindowsMemory.installable, ne_eq, decide_not, Bool.and_eq_true, Bool.not_eq_true',
        decide_eq_false_iff_not] at hq
      obtain ⟨patches', he, hlength, hsaved⟩ :=
        @ih ⟨put p.bytes (getProcAddress q.name) (trampoline q.replacementAddress), p.protection⟩ h.of_cons
      rw [if_neg hq.1.1, install_eq (h.patchable q List.mem_cons_self) hq.1.2 hq.2]
      dsimp only [Option.bind_eq_bind, Option.bind_some]
      rw [if_neg Bool.noConfusion, he]
      refine ⟨_, rfl, congrArg (· + 1) hlength, ?_⟩
      rw [List.map_cons, List.length_cons, List.take_succ_cons]
      refine (congrArg (List.cons _) hsaved).trans ?_
      rw [edits, edits, List.map_cons, saved,
        ← saved_put fun b hb => h.apart_keys List.mem_cons_self b (List.mem_cons_of_mem _ hb)]
      rfl
    · rw [WindowsMemory.installed, List.takeWhile_cons_of_neg hq, List.all_cons, Bool.eq_false_of_not_eq_true hq,
        Bool.false_and, installEach]
      by_cases hnull : getProcAddress q.name = 0
      · rw [if_pos hnull]
        exact ⟨_, rfl, rfl, rfl⟩
      · have hfail : w.isAddress64Bit p.protection (getProcAddress q.name) = false ∨
            w.isAddress64Bit p.protection q.replacementAddress = false := by
          simpa [WindowsMemory.installable, hnull, Bool.and_eq_true, or_iff_not_imp_left] using hq
        rw [if_neg hnull, Trampoline.install, if_pos hfail]
        exact ⟨_, rfl, rfl, rfl⟩

theorem uninstallTrampolines_eq (h : ∀ q ∈ patches, w.Patchable p.protection q.originalAddress) :
    uninstallTrampolines w patches p =
      some ⟨putAll (patches.map TrampolinePatch.savedBytes) p.bytes, p.protection⟩ := by
  induction patches generalizing p with
  | nil => rfl
  | cons q patches ih =>
    rw [List.forall_mem_cons] at h
    rw [uninstallTrampolines, uninstall_eq h.1, Option.bind_eq_bind, Option.bind_some]
    exact ih h.2

/-- A table that is installed whole holds what its trampolines cover. -/
theorem savedBytes_of_installed (h : w.Ready getProcAddress p.protection patches)
    (hinstall : installEach w getProcAddress patches p = some (true, patches', p')) :
    patches'.map TrampolinePatch.savedBytes =
      saved (edits getProcAddress patches) (window instructionSize p.bytes) := by
  have htaken : w.installed getProcAddress p.protection patches <+: patches := List.takeWhile_prefix _
  have hready : w.Ready getProcAddress p.protection (w.installed getProcAddress p.protection patches) :=
    ⟨fun q hq => h.patchable q (htaken.subset hq),
      fun q hq q' hq' => h.apart q (htaken.subset hq) q' (htaken.subset hq'),
      fun q hq => h.word q (htaken.subset hq)⟩
  obtain ⟨patches'', he, hlength, hsaved⟩ := installEach_eq hready
  rw [hinstall, Option.some_inj, Prod.mk.injEq, Prod.mk.injEq] at he
  obtain ⟨hall, rfl, -⟩ := he
  have hinstalled : w.installed getProcAddress p.protection patches = patches :=
    List.takeWhile_eq_self_iff.mpr (List.all_eq_true.mp hall.symm)
  rw [hinstalled, List.take_of_length_le (by rw [List.length_map, hlength])] at hsaved
  exact hsaved

end

/-- Calls of the patched functions arrive at their replacements, up to the first patch that fails. Nothing else
changes, neither bytes nor protections, and the table is installed whole exactly when no patch fails. -/
theorem install_trampolines_redirects {w : WindowsMemory} {getProcAddress : String → Nat}
    {patches : List TrampolinePatch} {p : Process}
    (h : w.Ready getProcAddress p.protection (w.installed getProcAddress p.protection patches)) :
    ∃ patches' p', installTrampolines w (some getProcAddress) patches p =
        some (patches.all (w.installable getProcAddress p.protection), patches', p') ∧
      p'.protection = p.protection ∧
      (∀ x, Outside instructionSize
        (addresses getProcAddress (w.installed getProcAddress p.protection patches)) x → p'.bytes x = p.bytes x) ∧
      ∀ before q after, w.installed getProcAddress p.protection patches = before ++ q :: after →
        (∀ q' ∈ after, getProcAddress q'.name ≠ getProcAddress q.name) →
        farJumpTarget p'.bytes (getProcAddress q.name) = some q.replacementAddress := by
  obtain ⟨patches', he, -, -⟩ := installEach_eq h
  refine ⟨patches', _, he, rfl, fun x hx => putAll_of_outside (by rwa [keys_edits]), fun before q after hq hlast => ?_⟩
  have hmem : q ∈ w.installed getProcAddress p.protection patches := hq ▸ List.mem_append_right _ List.mem_cons_self
  refine farJumpTarget_of_window ?_ (h.patchable q hmem).word (h.word q hmem)
  dsimp only
  rw [window_putAll fun a ha => (h.apart_keys hmem a ha).symm, hq, edits, List.map_append, List.map_cons]
  refine overwrite_append_cons ?_
  rw [← edits, keys_edits, List.mem_map]
  rintro ⟨q', hq', hsame⟩
  exact hlast q' hq' hsame

/-- The functions of the table lie 32 bytes apart, in the order of the table. -/
def crtExports (name : String) : Nat :=
  4096 + 32 * ["malloc", "free", "calloc", "realloc", "_aligned_malloc", "_aligned_free", "_msize"].idxOf name

def crtPatches : List TrampolinePatch := trampolinePatches fun symbol => 65536 + symbol.length

/-- Only the page of the library can be executed, and every region is one page. -/
def crtProcess : Process := ⟨fun _ => 0x90, fun x => if x / 4096 = 1 then .executeRead else .noAccess⟩

def crtMemory : WindowsMemory := ⟨fun protection a => ⟨a / 4096 * 4096, 4096, protection a⟩, fun _ _ => true⟩

theorem addresses_crt : addresses crtExports crtPatches = [4096, 4128, 4160, 4192, 4224, 4256, 4288] := by
  decide +kernel

theorem ready_crt : crtMemory.Ready crtExports crtProcess.protection crtPatches := by
  have hpage : ∀ a ∈ addresses crtExports crtPatches, 4096 ≤ a ∧ a + 14 ≤ 8192 := by
    rw [addresses_crt]
    decide
  have hapart : ∀ a ∈ addresses crtExports crtPatches, ∀ b ∈ addresses crtExports crtPatches,
      a = b ∨ a + 14 ≤ b ∨ b + 14 ≤ a := by
    rw [addresses_crt]
    decide
  simp only [addresses, List.forall_mem_map] at hpage hapart
  refine ⟨fun q hq => ?_, hapart, by decide +kernel⟩
  obtain ⟨hle, hle'⟩ := hpage q hq
  have hpage1 : crtExports q.name / 4096 = 1 := by omega
  have hquery : crtMemory.virtualQuery crtProcess.protection (crtExports q.name) =
      ⟨4096, 4096, .executeRead⟩ := by
    simp only [crtMemory, crtProcess, hpage1, if_true, Nat.one_mul]
  refine ⟨?_, ?_, ?_, ?_, fun _ => rfl⟩ <;> rw [hquery]
  · exact hle
  · exact hle'
  · decide
  · intro x hx hx'
    exact if_pos (by dsimp only at hx hx'; omega)

theorem installed_crt : crtMemory.installed crtExports crtProcess.protection crtPatches = crtPatches :=
  List.takeWhile_eq_self_iff.mpr (by decide +kernel)

theorem install_trampolines_redirects_crt : ∃ patches' p',
    installTrampolines crtMemory (some crtExports) crtPatches crtProcess = some (true, patches', p') ∧
      p'.bytes 4142 = 0x90 ∧ farJumpTarget p'.bytes 4128 = some 65551 := by
  obtain ⟨patches', p', he, -, houtside, hjump⟩ :=
    @install_trampolines_redirects crtMemory crtExports crtPatches crtProcess (installed_crt.symm ▸ ready_crt)
  have hall : crtPatches.all (crtMemory.installable crtExports crtProcess.protection) = true := by decide +kernel
  rw [hall] at he
  rw [installed_crt] at houtside hjump
  have hlast : ∀ q' ∈ crtPatches.drop 2, crtExports q'.name ≠ 4128 := by decide +kernel
  refine ⟨patches', p', he, houtside _ ?_, hjump (crtPatches.take 1) (crtPatches.get ⟨1, by decide⟩)
    (crtPatches.drop 2) rfl hlast⟩
  rw [Outside, addresses_crt]
  decide

/-- Uninstalling goes through the table in the order of the installation. Whatever the process did in between, it
gives every function back that one name resolves to, a function that several names resolve to still jumps to a
replacement, and nothing else changes: the functions are all back exactly when no two names resolve to one. -/
theorem uninstall_trampolines_restores {w : WindowsMemory} {getProcAddress : String → Nat}
    {patches patches' : List TrampolinePatch} {p p' p₁ : Process}
    (h : w.Ready getProcAddress p.protection patches) (h₁ : w.Ready getProcAddress p₁.protection patches)
    (hinstall : installTrampolines w (some getProcAddress) patches p = some (true, patches', p')) :
    ∃ p₂, uninstallTrampolines w patches' p₁ = some p₂ ∧ p₂.protection = p₁.protection ∧
      (∀ x, Outside instructionSize (addresses getProcAddress patches) x → p₂.bytes x = p₁.bytes x) ∧
      (∀ q ∈ patches, (addresses getProcAddress patches).count (getProcAddress q.name) = 1 →
        window instructionSize p₂.bytes (getProcAddress q.name) =
          window instructionSize p.bytes (getProcAddress q.name)) ∧
      (∀ q ∈ patches, 1 < (addresses getProcAddress patches).count (getProcAddress q.name) →
        ∃ q' ∈ patches, getProcAddress q'.name = getProcAddress q.name ∧
          farJumpTarget p₂.bytes (getProcAddress q.name) = some q'.replacementAddress) ∧
      ((∀ q ∈ patches, farJumpTarget p.bytes (getProcAddress q.name) ≠ some q.replacementAddress) →
        ((∀ q ∈ patches, window instructionSize p₂.bytes (getProcAddress q.name) =
          window instructionSize p.bytes (getProcAddress q.name)) ↔ (addresses getProcAddress patches).Nodup)) := by
  have hsaved := savedBytes_of_installed h hinstall
  have hkeys : patches'.map TrampolinePatch.originalAddress = addresses getProcAddress patches := by
    have hfst := congrArg (List.map Prod.fst) hsaved
    rw [← keys, ← keys, keys_saved, keys_edits, keys, List.map_map] at hfst
    exact hfst
  have hpatchable : ∀ q ∈ patches', w.Patchable p₁.protection q.originalAddress := by
    have hall : ∀ a ∈ patches'.map TrampolinePatch.originalAddress, w.Patchable p₁.protection a := by
      rw [hkeys, List.forall_mem_map]
      exact h₁.patchable
    exact List.forall_mem_map.mp hall
  have hwindow : ∀ q ∈ patches, window instructionSize (putAll (patches'.map TrampolinePatch.savedBytes) p₁.bytes)
      (getProcAddress q.name) = putBack (edits getProcAddress patches) (window instructionSize p.bytes)
        (window instructionSize p₁.bytes) (getProcAddress q.name) := by
    intro q hq
    rw [hsaved, window_putAll]
    rw [keys_saved]
    exact fun a ha => (h.apart_keys hq a ha).symm
  refine ⟨_, uninstallTrampolines_eq hpatchable, rfl, fun x hx => putAll_of_outside ?_, fun q hq hcount => ?_,
    fun q hq hcount => ?_, fun hnew => ?_⟩
  · rwa [hsaved, keys_saved, keys_edits]
  · rw [hwindow q hq]
    exact putBack_of_count_eq_one (by rwa [keys_edits])
  · rw [← keys_edits] at hcount
    obtain ⟨q', hq', heq⟩ := List.mem_map.mp (hwindow q hq ▸ putBack_of_one_lt_count hcount)
    rw [Prod.mk.injEq] at heq
    refine ⟨q', hq', heq.1, ?_⟩
    exact farJumpTarget_of_window heq.2.symm (h.patchable q hq).word (h.word q' hq')
  · have hwrites : ∀ write ∈ edits getProcAddress patches,
        write.2 ≠ window instructionSize p.bytes write.1 := by
      rw [edits, List.forall_mem_map]
      intro q hq heq
      exact hnew q hq (farJumpTarget_of_window heq.symm (h.patchable q hq).word (h.word q hq))
    have hiff := @putBack_eq_iff _ _ _ _ _ (window instructionSize p₁.bytes) hwrites
    rw [keys_edits, List.forall_mem_map] at hiff
    rw [← hiff]
    exact forall₂_congr fun q hq => by rw [← hwindow q hq]

theorem uninstall_trampolines_restores_crt : ∃ patches' p' p₂,
    installTrampolines crtMemory (some crtExports) crtPatches crtProcess = some (true, patches', p') ∧
      uninstallTrampolines crtMemory patches' p' = some p₂ ∧
      ∀ q ∈ crtPatches, window instructionSize p₂.bytes (crtExports q.name) =
        window instructionSize crtProcess.bytes (crtExports q.name) := by
  have hready : crtMemory.Ready crtExports crtProcess.protection
      (crtMemory.installed crtExports crtProcess.protection crtPatches) := installed_crt.symm ▸ ready_crt
  have hall : crtPatches.all (crtMemory.installable crtExports crtProcess.protection) = true := by decide +kernel
  obtain ⟨patches', he, -, -⟩ := installEach_eq hready
  rw [hall] at he
  generalize hp' : Process.mk _ crtProcess.protection = p' at he
  have hready' : crtMemory.Ready crtExports p'.protection crtPatches := hp' ▸ ready_crt
  obtain ⟨p₂, hp₂, -, -, -, -, hiff⟩ := uninstall_trampolines_restores ready_crt hready' he
  have hnew : ∀ q ∈ crtPatches, farJumpTarget crtProcess.bytes (crtExports q.name) ≠ some q.replacementAddress := by
    decide +kernel
  refine ⟨patches', p', p₂, he, hp₂, (hiff hnew).mpr ?_⟩
  rw [addresses_crt]
  decide

end Metamalloc.Platform
