import CodexQueueBot.Go.Slices
import CodexQueueBot.Go.Stdlib
import CodexQueueBot.Lib.Recent

/-!
# The tail of the output of a child

The output of a Codex child goes to a `tailBuffer`, which keeps the last bytes of what is written to
it in one array. A chunk that would not fit pushes out the oldest bytes: the others are moved to the
front, and the slice is cut before the chunk is appended. A chunk that fills the buffer on its own
replaces its content.

`string_isSuffix` says that the buffer shows the end of the stream, after every sequence of chunks
of any sizes. That no slice expression panics and no sum wraps around is part of it: `Write` returns
every time.
-/

set_option autoImplicit false
set_option relaxedAutoImplicit false

namespace CodexQueueBot.Codex

open Go Lib

/-! ### The buffer -/

/-- `tailBuffer`, without its mutex: `Write` and `String` hold it all the time. -/
structure TailBuffer where
  data : Slice UInt8
  max : Int

/-- `newTailBuffer`. -/
def newTailBuffer (maximum : Int) : Option TailBuffer := do
  let data ← Slice.make 0 0 maximum
  return { data, max := maximum }

namespace TailBuffer

/-- `Write`: the buffer it leaves, and the number of bytes it reports. The error is always nil. -/
def write (b : TailBuffer) (p : Slice UInt8) : Option (TailBuffer × Int) := do
  let written : Int := p.length
  if b.max ≤ 0 then return (b, written)
  if b.max ≤ p.length then
    let data ← b.data.slice 0 0
    let kept ← p.slice (p.length - b.max) p.length
    return ({ b with data := data.append kept.content }, written)
  -- The lengths are at least zero, so that no difference of two of them wraps around.
  let overflow := int64 (b.data.length + p.length - b.max)
  if 0 < overflow then
    let rest ← b.data.slice overflow b.data.length
    let data := b.data.copy rest.content
    let data ← data.slice 0 (data.length - overflow)
    return ({ b with data := data.append p.content }, written)
  return ({ b with data := b.data.append p.content }, written)

/-- `String`. -/
def string (b : TailBuffer) : List UInt8 :=
  b.data.content

/-! ### What it keeps -/

/-- The buffer has room for the maximum, and keeps the last bytes of a stream. -/
structure Keeps (b : TailBuffer) (maximum : Int) (stream : List UInt8) : Prop where
  max : b.max = maximum
  room : (b.data.capacity : Int) = maximum
  content : b.data.content = stream.rtake maximum.toNat

variable {b : TailBuffer} {maximum : Int} {stream : List UInt8}

/-- A new buffer keeps the empty stream. -/
theorem keeps_new (h : newTailBuffer maximum = some b) : b.Keeps maximum [] := by
  obtain ⟨data, hmake, hreturn⟩ := Option.bind_eq_some_iff.mp h
  cases hreturn
  obtain ⟨-, hcontent, hcapacity⟩ := Slice.make_eq_some hmake
  exact ⟨rfl, hcapacity, by rw [hcontent, List.rtake_nil]; rfl⟩

/-- Bytes that are appended to a slice with room for them, so that it shows the window. -/
theorem keeps_append {data : Slice UInt8} {added : List UInt8}
    (hroom : (data.capacity : Int) = maximum)
    (hcontent : data.content ++ added = stream.rtake maximum.toNat) :
    ({ data := data.append added, max := maximum } : TailBuffer).Keeps maximum stream where
  max := rfl
  room := by
    have hlength := congrArg List.length hcontent
    rw [List.length_append, Slice.length_content, length_rtake] at hlength
    rw [Slice.capacity_append (by omega)]
    exact hroom
  content := by rw [Slice.content_append, hcontent]

/-- `Write` returns the length of the chunk, and the buffer keeps the longer stream. The maximum is
that of an array, so that the sum of the lengths does not wrap around. -/
theorem Keeps.write (h : b.Keeps maximum stream) (hmaximum : maximum ≤ 2 ^ 48) (p : Slice UInt8) :
    ∃ b' : TailBuffer, b.write p = some (b', (p.length : Int)) ∧
      b'.Keeps maximum (stream ++ p.content) := by
  obtain ⟨hmax, hroom, hcontent⟩ := h
  have hlength := p.length_content
  have hfilled := b.data.length_content
  have hsize : b.data.length ≤ maximum.toNat := by
    rw [← hfilled, hcontent, length_rtake]
    exact min_le_left _ _
  have hwindow : (b.data.content ++ p.content).rtake maximum.toNat =
      (stream ++ p.content).rtake maximum.toNat := by
    rw [hcontent, rtake_append]
  unfold TailBuffer.write
  simp only [hmax, Option.bind_eq_bind, Option.pure_def]
  by_cases hzero : maximum ≤ 0
  · rw [if_pos hzero]
    refine ⟨b, rfl, hmax, hroom, ?_⟩
    have hnone : maximum.toNat = 0 := by omega
    rw [hcontent, hnone, List.rtake_zero, List.rtake_zero]
  rw [if_neg hzero]
  by_cases hlarge : maximum ≤ p.length
  · -- The chunk fills the buffer on its own.
    obtain ⟨data, hdata, hempty, hcapacity⟩ :=
      b.data.exists_slice le_rfl le_rfl (Int.natCast_nonneg _)
    obtain ⟨kept, hkept, hlast, -⟩ := @Slice.exists_slice _ p (p.length - maximum) p.length
      (by omega) (by omega) le_rfl
    simp only [if_pos hlarge, hdata, hkept, Option.bind_some]
    refine ⟨_, rfl, keeps_append ?_ ?_⟩
    · rw [hcapacity, Int.toNat_zero, Nat.sub_zero, hroom]
    · have hcut : ((p.length : Int) - maximum).toNat = p.content.length - maximum.toNat := by
        omega
      rw [hempty, hlast, Int.toNat_zero, List.take_zero, List.drop_zero, List.nil_append,
        Int.toNat_natCast, ← hlength, List.take_length, hlength, hcut,
        rtake_append_of_le _ (by omega), List.rtake]
  rw [if_neg hlarge]
  have hexact : int64 (b.data.length + p.length - maximum) =
      b.data.length + p.length - maximum :=
    int64_eq_self_iff.mpr (by omega)
  rw [hexact]
  by_cases hover : 0 < (b.data.length : Int) + p.length - maximum
  · -- The oldest bytes are pushed out.
    obtain ⟨rest, shifted, hrest, hshifted, hkept, hcapacity⟩ := @Slice.exists_shift _ b.data
      (b.data.length + p.length - maximum) (by omega) (by omega)
    simp only [if_pos hover, hrest, hshifted, Option.bind_some]
    refine ⟨_, rfl, keeps_append ?_ ?_⟩
    · rw [hcapacity, hroom]
    · have hout : ((b.data.length : Int) + p.length - maximum).toNat =
          (b.data.content ++ p.content).length - maximum.toNat := by
        rw [List.length_append]
        omega
      rw [hkept, ← hwindow, hout, List.rtake, List.drop_append_of_le_length]
      rw [List.length_append]
      omega
  · rw [if_neg hover]
    refine ⟨_, rfl, keeps_append hroom ?_⟩
    rw [← hwindow, rtake_eq_self]
    rw [List.length_append]
    omega

/-! ### Sequences of writes -/

/-- The stream of a sequence of chunks. -/
def streamOf (chunks : List (Slice UInt8)) : List UInt8 :=
  chunks.flatMap Slice.content

/-- The buffer after a sequence of `Write` calls. -/
def writes (b : TailBuffer) (chunks : List (Slice UInt8)) : Option TailBuffer :=
  chunks.foldlM (fun b p ↦ (b.write p).map (·.1)) b

/-- A sequence of `Write` calls keeps the longer stream. -/
theorem Keeps.writes (h : b.Keeps maximum stream) (hmaximum : maximum ≤ 2 ^ 48)
    (chunks : List (Slice UInt8)) :
    ∃ b' : TailBuffer, b.writes chunks = some b' ∧
      b'.Keeps maximum (stream ++ streamOf chunks) := by
  induction chunks generalizing b stream with
  | nil => exact ⟨b, rfl, by rwa [streamOf, List.flatMap_nil, List.append_nil]⟩
  | cons p chunks ih =>
    obtain ⟨b₁, hwrite, hkeeps⟩ := h.write hmaximum p
    obtain ⟨b₂, hwrites, hkeeps⟩ := ih hkeeps
    refine ⟨b₂, ?_, ?_⟩
    · rw [TailBuffer.writes, List.foldlM_cons, hwrite]
      exact hwrites
    · rw [streamOf, List.flatMap_cons, ← List.append_assoc]
      exact hkeeps

/-- In every sequence of `Write` calls on a new buffer, with chunks of any sizes, each call returns,
reports the length of its chunk, and leaves the last bytes of the stream so far: as many as the
maximum, or all of them if there are fewer. -/
theorem string_isSuffix (h : newTailBuffer maximum = some b) (chunks : List (Slice UInt8))
    (p : Slice UInt8) :
    ∃ before after, b.writes chunks = some before ∧
      before.write p = some (after, (p.length : Int)) ∧
      after.string <:+ streamOf (chunks ++ [p]) ∧
      after.string.length = min maximum.toNat (streamOf (chunks ++ [p])).length := by
  have hmaximum : maximum ≤ 2 ^ 48 := by
    obtain ⟨data, hmake, -⟩ := Option.bind_eq_some_iff.mp h
    exact (Slice.make_eq_some hmake).1.2.2
  obtain ⟨before, hwrites, hkeeps⟩ := (keeps_new h).writes hmaximum chunks
  obtain ⟨after, hwrite, hkeeps⟩ := hkeeps.write hmaximum p
  have hstream : [] ++ streamOf chunks ++ p.content = streamOf (chunks ++ [p]) := by
    rw [streamOf, streamOf, List.flatMap_append, List.flatMap_singleton, List.nil_append]
  rw [hstream] at hkeeps
  refine ⟨before, after, hwrites, hwrite, ?_, ?_⟩
  · rw [string, hkeeps.content]
    exact rtake_suffix _ _
  · rw [string, hkeeps.content, length_rtake]

/-- A chunk with the bytes of an ASCII text. -/
def chunk (text : String) : Slice UInt8 :=
  .whole (text.toList.map fun c ↦ c.toNat.toUInt8)

/-- A buffer for five bytes after three chunks, the last of which is longer than the buffer. -/
theorem string_isSuffix_five : ∃ b before after, newTailBuffer 5 = some b ∧
    b.writes [chunk "abc", chunk "defg"] = some before ∧ before.string = (chunk "cdefg").content ∧
    before.write (chunk "123456") = some (after, 6) ∧ after.string = (chunk "23456").content ∧
    after.string <:+ streamOf [chunk "abc", chunk "defg", chunk "123456"] := by
  have heval : ((newTailBuffer 5).bind fun b ↦ (b.writes [chunk "abc", chunk "defg"]).bind fun b₁ ↦
      (b₁.write (chunk "123456")).map fun result ↦ (b₁.string, result.1.string)) =
        some ((chunk "cdefg").content, (chunk "23456").content) := by
    decide +kernel
  obtain ⟨b, hnew, heval⟩ := Option.bind_eq_some_iff.mp heval
  obtain ⟨before, after, hwrites, hwrite, hsuffix, -⟩ :=
    string_isSuffix hnew [chunk "abc", chunk "defg"] (chunk "123456")
  rw [hwrites, Option.bind_some, hwrite, Option.map_some, Option.some.injEq, Prod.mk.injEq] at heval
  exact ⟨b, before, after, hnew, hwrites, heval.1, hwrite, heval.2, hsuffix⟩

end TailBuffer

end CodexQueueBot.Codex
