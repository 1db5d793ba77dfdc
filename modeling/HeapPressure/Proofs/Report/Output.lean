import HeapPressure.Proofs.Text.Repair
import HeapPressure.Report.Basic

/-!
What a report keeps of captured output. Each stream is cut at its two-hundredth byte, whatever
the other holds, and the rest is repaired to text.
-/
namespace HeapPressure.Report

open Text.Utf8

/-- What is kept of a stream. A stream of whole characters loses those behind the cut, and one
that the cut falls into is replaced. -/
structure Keeps (stream : List UInt8) (text : String) : Prop where
  valid : ∀ s : String, stream = s.toUTF8.data.toList → ∃ kept, LongestWithin 200 kept s.toList ∧
    (Inside 200 s.toList → text.toList = kept ++ [replacement]) ∧
    (¬ Inside 200 s.toList → text.toList = kept)
  short : ∀ s : String, stream = s.toUTF8.data.toList → stream.length ≤ 200 → text = s
  repaired : ∀ cs, Repairs (stream.take 200) cs ↔ text.toList = cs
  length_le : text.length ≤ 200
  size_le : text.utf8ByteSize ≤ 600

theorem toUTF8_eq (s : String) : s.toUTF8.data.toList = bytesOf s.toList := by
  obtain ⟨cs, rfl⟩ : ∃ cs, s = String.ofList cs := ⟨s.toList, String.ofList_toList.symm⟩
  rw [String.toUTF8, String.toByteArray_ofList, List.utf8Encode, List.data_toByteArray,
    String.toList_ofList]
  rfl

theorem utf8ByteSize_ofList (cs : List Char) :
    (String.ofList cs).utf8ByteSize = (bytesOf cs).length := by
  rw [String.utf8ByteSize, String.toByteArray_ofList, List.utf8Encode, List.size_toByteArray]
  rfl

theorem toList_head (stream : List UInt8) : (head stream).toList = lossy (stream.take 200) :=
  String.toList_ofList

theorem repairs_head (stream : List UInt8) : Repairs (stream.take 200) (head stream).toList :=
  repairs_iff.mpr (toList_head stream).symm

/-- Of whole characters the cut leaves those in front of it, and a replacement for the one that it
falls into. -/
theorem exists_kept (s : String) :
    let text := (head s.toUTF8.data.toList).toList
    ∃ kept, LongestWithin 200 kept s.toList ∧
      (Inside 200 s.toList → text = kept ++ [replacement]) ∧
      (¬ Inside 200 s.toList → text = kept) := by
  intro text
  obtain ⟨kept, part, hcut, hlongest, hpart⟩ := exists_cut 200 s.toList
  have htext : text = kept ++ lossy part := by
    rw [← lossy_bytesOf, ← hcut, ← toUTF8_eq]
    exact toList_head _
  refine ⟨kept, hlongest, ?_, ?_⟩
  · intro hinside
    rcases hpart with ⟨hout, -⟩ | ⟨-, hbad⟩
    · exact absurd hinside hout
    · have hone := hbad.lossy_eq
      rw [List.append_nil, lossy_nil] at hone
      rw [htext, hone]
  · intro hout
    rcases hpart with ⟨-, rfl⟩ | ⟨hinside, -⟩
    · rw [htext, lossy_nil, List.append_nil]
    · exact absurd hinside hout

theorem head_of_length_le (s : String) (h : s.toUTF8.data.toList.length ≤ 200) :
    head s.toUTF8.data.toList = s := by
  have hwhole : lossy (bytesOf s.toList) = s.toList := by
    simpa using lossy_bytesOf s.toList []
  rw [← String.toList_inj, toList_head, List.take_of_length_le h, toUTF8_eq, hwhole]

theorem keeps_head (stream : List UInt8) : Keeps stream (head stream) := by
  have hlength := (repairs_head stream).length_le
  have htake : (stream.take 200).length ≤ 200 := List.length_take_le 200 stream
  refine ⟨?_, ?_, ?_, ?_, ?_⟩
  · intro s hs
    subst hs
    exact exists_kept s
  · intro s hs hshort
    subst hs
    exact head_of_length_le s hshort
  · intro cs
    rw [repairs_iff, toList_head]
  · rw [← String.length_toList]
    omega
  · have hsize : (head stream).utf8ByteSize = (bytesOf (head stream).toList).length := by
      rw [← utf8ByteSize_ofList, String.ofList_toList]
    omega

/-- Bytes that begin no character are replaced one by one. -/
theorem lossy_replicate (n : Nat) :
    lossy (List.replicate n 0xFF) = List.replicate n replacement := by
  induction n with
  | zero => rfl
  | succ n ih =>
    rw [List.replicate_succ, lossy_cons, List.replicate_succ, ← ih]
    rfl

/-- A report keeps of each stream what stands in front of the cut, as text, and nothing of what
it keeps depends on the other stream or on bytes behind the cut. There are two hundred characters
and six hundred bytes in it at most, and some streams have as many. -/
theorem withOutput_keeps (r : Report) (out err : List UInt8) :
    let kept := r.withOutput out err
    Keeps out kept.stdout ∧ Keeps err kept.stderr ∧
    (∀ out' err', out'.take 200 = out.take 200 → (r.withOutput out' err').stdout = kept.stdout) ∧
    (∀ out' err', err'.take 200 = err.take 200 → (r.withOutput out' err').stderr = kept.stderr) ∧
    ∃ full, (r.withOutput full full).stdout.length = 200 ∧
      (r.withOutput full full).stdout.utf8ByteSize = 600 ∧
      (r.withOutput full full).stderr = (r.withOutput full full).stdout := by
  intro kept
  refine ⟨keeps_head out, keeps_head err, ?_, ?_, List.replicate 200 0xFF, ?_, ?_, rfl⟩
  · intro out' err' h
    exact congrArg (fun bytes => String.ofList (lossy bytes)) h
  · intro out' err' h
    exact congrArg (fun bytes => String.ofList (lossy bytes)) h
  · change (String.ofList (lossy (List.replicate 200 0xFF))).length = 200
    rw [String.length_ofList, lossy_replicate, List.length_replicate]
  · change (String.ofList (lossy (List.replicate 200 0xFF))).utf8ByteSize = 600
    rw [utf8ByteSize_ofList, lossy_replicate, bytesOf, List.length_flatMap, List.map_replicate,
      List.sum_replicate_nat]
    rfl

/-- The cut falls inside the last character of one stream: it is replaced. The other stream ends
with a stray byte behind the cut. -/
theorem withOutput_keeps_cut (r : Report) :
    let s := String.ofList (List.replicate 199 'a' ++ ['é'])
    let out := List.replicate 199 0x61 ++ [0xC3, 0xA9]
    let err := List.replicate 200 0x62 ++ [0xFF]
    let kept := r.withOutput out err
    out = s.toUTF8.data.toList ∧ Inside 200 s.toList ∧
      (∃ front, LongestWithin 200 front s.toList ∧ kept.stdout.toList = front ++ [replacement]) ∧
      (List.replicate 200 0x62).take 200 = err.take 200 ∧
      (r.withOutput [] (List.replicate 200 0x62)).stderr = kept.stderr := by
  intro s out err kept
  obtain ⟨hout, herr, -, hdepends, -⟩ := withOutput_keeps r out err
  have hs : s.toList = List.replicate 199 'a' ++ ['é'] := String.toList_ofList
  have hplain : bytesOf (List.replicate 199 'a') = List.replicate 199 0x61 := by
    rw [bytesOf, List.flatMap_replicate]
    exact List.flatten_replicate_singleton
  have hbytes : out = s.toUTF8.data.toList := by
    rw [toUTF8_eq, hs, bytesOf_append, hplain]
    rfl
  have hinside : Inside 200 s.toList := by
    refine ⟨List.replicate 199 'a', 'é', [], hs, ?_, ?_⟩
    · rw [hplain, List.length_replicate]
      decide
    · rw [bytesOf_append, hplain, List.length_append, List.length_replicate]
      decide
  have hcut : (List.replicate 200 0x62).take 200 = err.take 200 := by
    rw [List.take_append_of_le_length (Nat.le_of_eq List.length_replicate.symm)]
  obtain ⟨front, hfront, hreplaced, -⟩ := hout.valid s hbytes
  exact ⟨hbytes, hinside, ⟨front, hfront, hreplaced hinside⟩, hcut, hdepends [] _ hcut⟩

end HeapPressure.Report
