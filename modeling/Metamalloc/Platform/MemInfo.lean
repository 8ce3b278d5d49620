import Mathlib.Algebra.Ring.Nat
import Metamalloc.Library.DecimalScan
import Metamalloc.Library.TextSearch

/-! The lookup of an attribute in `/proc/meminfo`, which is read in pieces into one buffer. -/
namespace Metamalloc.Platform
open Library.DecimalScan Library.TextSearch

abbrev memInfoBufferSize : Nat := 256

def strtoul (text : List Char) : Nat :=
  let (negative, number) := scanNumber text
  if 2^64 ≤ number then 2^64 - 1 else if negative then (2^64 - number) % 2^64 else number

/-- The bytes of the buffer; nothing is known of those that have not been read into. -/
abbrev ReadBuffer := List (Option Char)

def ReadBuffer.overwrite (chunk : List Char) (buffer : ReadBuffer) : ReadBuffer :=
  chunk.map some ++ buffer.drop chunk.length

/-- The position of the attribute in front of the first NUL, if it is there. The outer none is that of a search that
goes on to a byte that is not known, or behind the buffer. -/
def strstr (name : List Char) : ReadBuffer → Option (Option Nat)
  | [] => if name = [] then some (some 0) else none
  | byte :: buffer =>
    if name.map some <+: byte :: buffer then some (some 0)
    else
      match byte with
      | none => none
      | some c => if c = '\x00' then some none else (strstr name buffer).map (Option.map (· + 1))

def ReadBuffer.known : ReadBuffer → List Char
  | some c :: buffer => c :: known buffer
  | _ => []

/-- The number at the start of the buffer; none where its end is not in what is known. -/
def strtoulAt (buffer : ReadBuffer) : Option Nat :=
  if NumberEnds (ReadBuffer.known buffer) then some (strtoul (ReadBuffer.known buffer)) else none

def searchReads (name : List Char) (attributeLen : Nat) : ReadBuffer → List (List Char) → Option Nat
  | _, [] => some 0
  | buffer, chunk :: chunks =>
    let buffer := buffer.overwrite chunk
    match strstr name buffer with
    | none => none
    | some none => searchReads name attributeLen buffer chunks
    | some (some pos) => strtoulAt (buffer.drop (pos + attributeLen))

/-- The file is given by the pieces in which it is read. The result is none where it depends on bytes that have not
been read into the buffer. -/
def getProcMemInfo (name : List Char) (attributeLen : Nat) (chunks : List (List Char)) : Option Nat :=
  searchReads name attributeLen (List.replicate memInfoBufferSize none) chunks

/-- The number behind the first occurrence of the attribute in the whole file. -/
def memInfoValue (name : List Char) (attributeLen : Nat) (content : List Char) : Nat :=
  match find name content with
  | none => 0
  | some pos => strtoul (content.drop (pos + attributeLen))

section
variable {name chunk : List Char} {attributeLen n m : Nat}

theorem strtoul_append {text more : List Char} (h : NumberEnds text) : strtoul (text ++ more) = strtoul text := by
  rw [strtoul, scanNumber_append h, strtoul]

theorem overwrite_unknown (chunk : List Char) (n : Nat) :
    ReadBuffer.overwrite chunk (List.replicate n none) = chunk.map some ++ List.replicate (n - chunk.length) none := by
  rw [ReadBuffer.overwrite, List.drop_replicate]

theorem known_append_unknown (chunk : List Char) (m : Nat) :
    ReadBuffer.known (chunk.map some ++ List.replicate m none) = chunk := by
  induction chunk with
  | nil => cases m <;> rfl
  | cons c chunk ih => exact congrArg (List.cons c) ih

theorem known_drop (chunk : List Char) (n m : Nat) :
    ReadBuffer.known ((chunk.map some ++ List.replicate m none).drop n) = chunk.drop n := by
  rw [List.drop_append, ← List.map_drop, List.drop_replicate]
  exact known_append_unknown _ _

/-- The attribute is compared with known bytes only. -/
theorem map_some_prefix_iff : name.map some <+: chunk.map some ++ List.replicate m none ↔ name <+: chunk := by
  induction name generalizing chunk with
  | nil => simp
  | cons a name ih =>
    cases chunk with
    | nil =>
      cases m with
      | zero => simp
      | succ m => simp [List.replicate_succ]
    | cons c chunk => simp [ih]

theorem strstr_cons {c : Char} : strstr name ((c :: chunk).map some ++ List.replicate m none) =
    if name <+: c :: chunk then some (some 0)
    else if c = '\x00' then some none
    else (strstr name (chunk.map some ++ List.replicate m none)).map (Option.map (· + 1)) := by
  rw [List.map_cons, List.cons_append, strstr]
  exact if_congr (@map_some_prefix_iff name (c :: chunk) m) rfl rfl

theorem strstr_of_find (hfind : find name chunk = some n) (hnul : '\x00' ∉ chunk.take n) :
    strstr name (chunk.map some ++ List.replicate m none) = some (some n) := by
  induction chunk generalizing n with
  | nil =>
    rw [find] at hfind
    split at hfind
    · next h =>
      cases hfind
      subst h
      cases m <;> rfl
    · cases hfind
  | cons c chunk ih =>
    rw [strstr_cons]
    rw [find] at hfind
    split at hfind
    · next h =>
      cases hfind
      exact if_pos h
    · next h =>
      obtain ⟨k, hk, rfl⟩ := Option.map_eq_some_iff.mp hfind
      rw [List.take_succ_cons, List.mem_cons, not_or] at hnul
      rw [if_neg h, if_neg (Ne.symm hnul.1), ih hk hnul.2]
      rfl

/-- Without a NUL the search for a name that is not there goes on behind the bytes that have been read. -/
theorem strstr_of_find_none (hfind : find name chunk = none) (hnul : '\x00' ∉ chunk) :
    strstr name (chunk.map some ++ List.replicate m none) = none := by
  induction chunk with
  | nil =>
    have hne : name ≠ [] := by
      rintro rfl
      cases hfind
    have hp : ¬ name.map some <+: List.map some [] ++ List.replicate m none := fun hp =>
      hne (List.prefix_nil.mp (map_some_prefix_iff.mp hp))
    cases m with
    | zero => exact if_neg hne
    | succ m => exact if_neg hp
  | cons c chunk ih =>
    rw [strstr_cons]
    rw [find] at hfind
    split at hfind
    · cases hfind
    · next h =>
      rw [List.mem_cons, not_or] at hnul
      rw [if_neg h, if_neg (Ne.symm hnul.1), ih (Option.map_eq_none_iff.mp hfind) hnul.2]
      rfl

/-- The first read has the name in front of any NUL, and what follows the number behind it. -/
def FirstReadHoldsNumber (name : List Char) (attributeLen : Nat) (chunk : List Char) : Prop :=
  ∃ pos, find name chunk = some pos ∧ '\x00' ∉ chunk.take pos ∧ NumberEnds (chunk.drop (pos + attributeLen))

/-- The value of the whole file is found in the first read. -/
theorem getProcMemInfo_of_firstRead {chunks : List (List Char)}
    (h : FirstReadHoldsNumber name attributeLen chunk) :
    getProcMemInfo name attributeLen (chunk :: chunks) =
      some (memInfoValue name attributeLen (chunk :: chunks).flatten) := by
  obtain ⟨pos, hfind, hnul, hends⟩ := h
  have hlt : pos + attributeLen ≤ chunk.length := by
    by_contra hlt
    rw [List.drop_of_length_le (by omega)] at hends
    exact hends rfl
  rw [getProcMemInfo, searchReads, overwrite_unknown, strstr_of_find hfind hnul]
  dsimp only
  rw [strtoulAt, known_drop, if_pos hends, memInfoValue, List.flatten_cons, find_append_of_eq_some hfind]
  dsimp only
  rw [List.drop_append_of_le_length hlt, strtoul_append hends]

/-- Where the read does not hold the number, the result depends on bytes that have not been read. -/
theorem searchReads_unknown {buffer : ReadBuffer} {chunks : List (List Char)}
    (hbuffer : buffer.drop chunk.length = List.replicate m none) (hnul : '\x00' ∉ chunk)
    (h : ¬ FirstReadHoldsNumber name attributeLen chunk) :
    searchReads name attributeLen buffer (chunk :: chunks) = none := by
  rw [searchReads, ReadBuffer.overwrite, hbuffer]
  cases hfind : find name chunk with
  | none => rw [strstr_of_find_none hfind hnul]
  | some pos =>
    have hfront : '\x00' ∉ chunk.take pos := fun hmem => hnul (List.mem_of_mem_take hmem)
    rw [strstr_of_find hfind hfront]
    dsimp only
    rw [strtoulAt, known_drop]
    exact if_neg fun hends => h ⟨pos, hfind, hfront, hends⟩

/-- A byte that is NUL ends the search, and the next read goes on. -/
theorem searchReads_of_nul {buffer : ReadBuffer} {chunks : List (List Char)} (hname : name ≠ [])
    (hterminated : '\x00' ∉ name) :
    searchReads name attributeLen buffer (('\x00' :: chunk) :: chunks) =
      searchReads name attributeLen (buffer.overwrite ('\x00' :: chunk)) chunks := by
  have hbegins (l : ReadBuffer) : ¬ name.map some <+: some '\x00' :: l := by
    cases name with
    | nil => exact absurd rfl hname
    | cons a name =>
      rw [List.map_cons, List.cons_prefix_cons]
      rintro ⟨ha, -⟩
      exact hterminated (Option.some.inj ha ▸ List.mem_cons_self)
  have hstr : strstr name (buffer.overwrite ('\x00' :: chunk)) = some none := by
    rw [ReadBuffer.overwrite, List.map_cons, List.cons_append, strstr, if_neg (hbegins _)]
    rfl
  rw [searchReads, hstr]

theorem searchReads_of_all_nul {buffer : ReadBuffer} {chunks : List (List Char)} (hname : name ≠ [])
    (hterminated : '\x00' ∉ name) (hchunks : ∀ chunk ∈ chunks, chunk ≠ [] ∧ ∀ c ∈ chunk, c = '\x00') :
    searchReads name attributeLen buffer chunks = some 0 := by
  induction chunks generalizing buffer with
  | nil => rfl
  | cons chunk chunks ih =>
    rw [List.forall_mem_cons] at hchunks
    obtain ⟨⟨hne, hall⟩, hchunks⟩ := hchunks
    cases chunk with
    | nil => exact absurd rfl hne
    | cons c chunk =>
      obtain rfl := hall c List.mem_cons_self
      rw [searchReads_of_nul hname hterminated]
      exact ih hchunks

/-- One byte does not hold the name and a number behind it. -/
theorem not_firstReadHoldsNumber_single (c : Char) (hlen : 0 < attributeLen) :
    ¬ FirstReadHoldsNumber name attributeLen [c] := by
  rintro ⟨pos, -, -, hends⟩
  rw [List.drop_of_length_le (by rw [List.length_singleton]; omega)] at hends
  exact hends rfl

theorem searchReads_bytewise {buffer : ReadBuffer} {content : List Char} (hname : name ≠ [])
    (hterminated : '\x00' ∉ name) (hlen : 0 < attributeLen) (hbuffer : buffer.drop 1 = List.replicate m none)
    (hcontent : ∃ c ∈ content, c ≠ '\x00') :
    searchReads name attributeLen buffer (content.map fun c => [c]) = none := by
  induction content generalizing buffer with
  | nil =>
    obtain ⟨c, hc, -⟩ := hcontent
    cases hc
  | cons c content ih =>
    rw [List.map_cons]
    by_cases hc : c = '\x00'
    · subst hc
      rw [searchReads_of_nul hname hterminated]
      refine ih ?_ ?_
      · exact hbuffer
      · obtain ⟨d, hd, hne⟩ := hcontent
        exact ⟨d, (List.mem_cons.mp hd).resolve_left hne, hne⟩
    · exact searchReads_unknown hbuffer (by simpa using Ne.symm hc) (not_firstReadHoldsNumber_single c hlen)

end

/-- A way in which the system may return the file. -/
def IsSplit (chunks : List (List Char)) (content : List Char) : Prop :=
  chunks.flatten = content ∧ ∀ chunk ∈ chunks, chunk ≠ [] ∧ chunk.length ≤ memInfoBufferSize

section
variable {name : List Char} {attributeLen : Nat}

theorem memInfoValue_of_all_nul {content : List Char} (hname : name ≠ []) (hterminated : '\x00' ∉ name)
    (hcontent : ∀ c ∈ content, c = '\x00') : memInfoValue name attributeLen content = 0 := by
  have hfind : find name content = none := by
    rw [find_eq_none_iff]
    intro hi
    cases name with
    | nil => exact hname rfl
    | cons a name =>
      have ha := hcontent a (hi.subset List.mem_cons_self)
      exact hterminated (ha ▸ List.mem_cons_self)
  rw [memInfoValue, hfind]

theorem IsSplit.eq_nil {chunks : List (List Char)} (h : IsSplit chunks []) : chunks = [] := by
  cases chunks with
  | nil => rfl
  | cons chunk chunks => exact absurd (List.append_eq_nil_iff.mp h.1).1 (h.2 chunk List.mem_cons_self).1

theorem IsSplit.bytewise (content : List Char) : IsSplit (content.map fun c => [c]) content := by
  refine ⟨?_, fun chunk hchunk => ?_⟩
  · rw [← List.flatMap_def, List.flatMap_singleton']
  · obtain ⟨c, -, rfl⟩ := List.mem_map.mp hchunk
    exact ⟨List.cons_ne_nil c [], by rw [List.length_singleton]; decide⟩

theorem getProcMemInfo_of_split {content : List Char} {chunks : List (List Char)} (hname : name ≠ [])
    (hterminated : '\x00' ∉ name) (hsplit : IsSplit chunks content)
    (h : content = [] ∨ ∃ chunk ∈ chunks.head?, FirstReadHoldsNumber name attributeLen chunk) :
    getProcMemInfo name attributeLen chunks = some (memInfoValue name attributeLen content) := by
  rcases h with rfl | ⟨chunk, hchunk, hfirst⟩
  · rw [hsplit.eq_nil, memInfoValue_of_all_nul hname hterminated (by simp)]
    rfl
  · cases chunks with
    | nil => cases hchunk
    | cons first chunks =>
      cases hchunk
      rw [← hsplit.1]
      exact getProcMemInfo_of_firstRead hfirst

theorem getProcMemInfo_eq_iff {content : List Char} {chunks : List (List Char)} (hname : name ≠ [])
    (hterminated : '\x00' ∉ name) (hsplit : IsSplit chunks content) (hnul : '\x00' ∉ content) :
    getProcMemInfo name attributeLen chunks = some (memInfoValue name attributeLen content) ↔
      content = [] ∨ ∃ chunk ∈ chunks.head?, FirstReadHoldsNumber name attributeLen chunk := by
  refine ⟨fun h => ?_, getProcMemInfo_of_split hname hterminated hsplit⟩
  cases chunks with
  | nil => exact .inl hsplit.1.symm
  | cons chunk chunks =>
    refine .inr ⟨chunk, rfl, ?_⟩
    by_contra hnot
    have hchunk : '\x00' ∉ chunk := by
      intro hmem
      rw [← hsplit.1, List.flatten_cons] at hnul
      exact hnul (List.mem_append_left _ hmem)
    have hunknown := @searchReads_unknown name chunk attributeLen _ (List.replicate memInfoBufferSize none) chunks
      List.drop_replicate hchunk hnot
    rw [getProcMemInfo, hunknown] at h
    cases h

/-- For a file without NULs, and each way to read it, the value of the whole file is returned just when the first read
holds the name, the number behind it and what follows that; with NULs this is still enough. A file of which every way
to read it gives the value has nothing but NULs. -/
theorem memInfo_lookup_iff (hname : name ≠ []) (hterminated : '\x00' ∉ name) (hlen : name.length ≤ attributeLen) :
    (∀ content chunks, IsSplit chunks content → '\x00' ∉ content →
      (getProcMemInfo name attributeLen chunks = some (memInfoValue name attributeLen content) ↔
        content = [] ∨ ∃ chunk ∈ chunks.head?, FirstReadHoldsNumber name attributeLen chunk)) ∧
    (∀ content chunks, IsSplit chunks content →
      (content = [] ∨ ∃ chunk ∈ chunks.head?, FirstReadHoldsNumber name attributeLen chunk) →
      getProcMemInfo name attributeLen chunks = some (memInfoValue name attributeLen content)) ∧
    ∀ content, (∀ chunks, IsSplit chunks content →
      getProcMemInfo name attributeLen chunks = some (memInfoValue name attributeLen content)) ↔
      ∀ c ∈ content, c = '\x00' := by
  have hpos : 0 < attributeLen := (List.length_pos_of_ne_nil hname).trans_le hlen
  refine ⟨fun content chunks hsplit hnul => getProcMemInfo_eq_iff hname hterminated hsplit hnul,
    fun content chunks hsplit h => getProcMemInfo_of_split hname hterminated hsplit h, fun content => ⟨?_, ?_⟩⟩
  · intro h
    by_contra hnot
    have hcontent : ∃ c ∈ content, c ≠ '\x00' := by simpa using hnot
    have hbytes := h _ (IsSplit.bytewise content)
    have hunknown := searchReads_bytewise hname hterminated hpos
      (List.drop_replicate (n := memInfoBufferSize) (i := 1)) hcontent
    rw [getProcMemInfo, hunknown] at hbytes
    cases hbytes
  · intro hcontent chunks hsplit
    rw [memInfoValue_of_all_nul hname hterminated hcontent]
    refine searchReads_of_all_nul hname hterminated fun chunk hchunk => ⟨(hsplit.2 chunk hchunk).1, fun c hc => ?_⟩
    refine hcontent c ?_
    rw [← hsplit.1]
    exact List.mem_flatten_of_mem hchunk hc

end

/-- The label `A:` with the number 12, read at once. -/
theorem memInfo_lookup_of_one_read :
    getProcMemInfo ['A'] 2 [['A', ':', ' ', '1', '2', '\n']] = some 12 ∧
    memInfoValue ['A'] 2 ['A', ':', ' ', '1', '2', '\n'] = 12 := by
  have hsplit : IsSplit [['A', ':', ' ', '1', '2', '\n']] ['A', ':', ' ', '1', '2', '\n'] :=
    ⟨rfl, by decide⟩
  have hfirst : FirstReadHoldsNumber ['A'] 2 ['A', ':', ' ', '1', '2', '\n'] :=
    ⟨0, rfl, by simp, by decide +kernel⟩
  have hvalue : memInfoValue ['A'] 2 ['A', ':', ' ', '1', '2', '\n'] = 12 := by decide +kernel
  have hlookup := ((memInfo_lookup_iff (by decide) (by decide) (by decide)).1 _ _ hsplit (by decide)).mpr
    (.inr ⟨_, rfl, hfirst⟩)
  rw [hvalue] at hlookup
  exact ⟨hlookup, hvalue⟩

/-- The same file with its number in two reads, and the label behind a NUL. -/
theorem memInfo_lookup_depends_on_reads :
    getProcMemInfo ['A'] 2 [['A', ':', ' ', '1'], ['2', '\n']] = none ∧
    memInfoValue ['A'] 2 ['A', ':', ' ', '1', '2', '\n'] = 12 ∧
    getProcMemInfo ['A'] 2 [['\x00', 'A', ':', ' ', '5', '\n']] = some 0 ∧
    memInfoValue ['A'] 2 ['\x00', 'A', ':', ' ', '5', '\n'] = 5 := by
  decide +kernel

end Metamalloc.Platform
