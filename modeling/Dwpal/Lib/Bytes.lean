import Mathlib.Data.List.Basic
import Mathlib.Data.List.TakeWhile

/-! Bytes in memory: C strings, buffers of a fixed size, and the copying functions of the C library
with their bounds checks. Every size passed is taken to be below the library's limit on sizes. -/

namespace Dwpal

/-- The C string that starts at `bytes`: the bytes before the first zero. -/
def cstr (bytes : List UInt8) : List UInt8 := bytes.takeWhile (· != 0)

/-- `strncmp(a, b, n) == 0`. -/
def strncmpEq (a b : List UInt8) (n : Nat) : Bool := (cstr a).take n == (cstr b).take n

/-- The C string that `strncpy_s(dest, dmax, src, slen)` leaves in `dest`: empty if the bytes to be
copied and their terminator do not fit. -/
def strncpyS (dmax : Nat) (src : List UInt8) (slen : Nat) : List UInt8 :=
  if ((cstr src).take slen).length < dmax then (cstr src).take slen else []

/-- The bytes of a string literal of ASCII characters, without the terminator. -/
def ascii (s : String) : List UInt8 := s.toList.map fun c => UInt8.ofNat c.toNat

theorem cstr_zero_notMem (bytes : List UInt8) : 0 ∉ cstr bytes := fun h => by
  simpa using List.mem_takeWhile_imp h

theorem bne_zero_of_notMem {bytes : List UInt8} (h : 0 ∉ bytes) : ∀ b ∈ bytes, (b != 0) = true := by
  intro b hb
  have hne : b ≠ 0 := fun e => h (e ▸ hb)
  simpa using hne

theorem cstr_of_notMem {bytes : List UInt8} (h : 0 ∉ bytes) : cstr bytes = bytes :=
  List.takeWhile_eq_self_iff.mpr (bne_zero_of_notMem h)

@[simp] theorem cstr_cstr (bytes : List UInt8) : cstr (cstr bytes) = cstr bytes :=
  cstr_of_notMem (cstr_zero_notMem bytes)

theorem cstr_append_zero {bytes : List UInt8} (h : 0 ∉ bytes) (rest : List UInt8) :
    cstr (bytes ++ 0 :: rest) = bytes := by
  rw [cstr, List.takeWhile_append_of_pos (bne_zero_of_notMem h)]
  simp

theorem cstr_append_of_mem {bytes : List UInt8} (h : 0 ∈ bytes) (rest : List UInt8) :
    cstr (bytes ++ rest) = cstr bytes := by
  rw [cstr, List.takeWhile_append, if_neg, ← cstr]
  intro hlen
  have heq : cstr bytes = bytes := (List.takeWhile_prefix _).eq_of_length hlen
  exact cstr_zero_notMem bytes (heq.symm ▸ h)

theorem cstr_take (bytes : List UInt8) (n : Nat) :
    cstr ((cstr bytes).take n) = (cstr bytes).take n :=
  cstr_of_notMem fun h => cstr_zero_notMem bytes (List.mem_of_mem_take h)

theorem strncpyS_eq {dmax slen : Nat} {src : List UInt8} (h : slen < dmax) :
    strncpyS dmax src slen = (cstr src).take slen :=
  if_pos (by simp only [List.length_take]; omega)

theorem zero_notMem_strncpyS (dmax : Nat) (src : List UInt8) (slen : Nat) :
    0 ∉ strncpyS dmax src slen := by
  unfold strncpyS
  split
  · exact fun h => cstr_zero_notMem src (List.mem_of_mem_take h)
  · simp

theorem strncmpEq_iff {a b : List UInt8} {n : Nat} :
    strncmpEq a b n = true ↔ (cstr a).take n = (cstr b).take n := by
  simp [strncmpEq]

/-- A `char[n]` that holds a C string. -/
@[ext] structure CString (n : Nat) where
  bytes : List UInt8
  zero_notMem : 0 ∉ bytes
  length_lt : bytes.length < n
deriving DecidableEq

namespace CString

variable {n : Nat}

/-- What `strncpy_s(dest, n, src, slen)` leaves in `dest`. -/
def copyFrom (src : List UInt8) (slen : Nat) (hn : 0 < n) : CString n where
  bytes := strncpyS n src slen
  zero_notMem := zero_notMem_strncpyS n src slen
  length_lt := by
    unfold strncpyS
    split
    · assumption
    · exact hn

theorem take_bytes (s : CString n) : s.bytes.take n = s.bytes :=
  List.take_of_length_le (Nat.le_of_lt s.length_lt)

@[simp] theorem cstr_bytes (s : CString n) : cstr s.bytes = s.bytes := cstr_of_notMem s.zero_notMem

/-- `strncmp` over the whole array is equality. -/
theorem strncmpEq_bytes (a b : CString n) : strncmpEq a.bytes b.bytes n = true ↔ a = b := by
  rw [strncmpEq_iff, cstr_bytes, cstr_bytes, take_bytes, take_bytes, CString.ext_iff]

theorem copyFrom_bytes_eq {src : List UInt8} {slen : Nat} (hn : 0 < n) (hslen : slen < n) :
    (copyFrom src slen hn).bytes = (cstr src).take slen := strncpyS_eq hslen

/-- The string that `strcpy_s(dest, n, src)` leaves in `dest`: empty if it does not fit. -/
def strcpyS (src : List UInt8) (hn : 0 < n) : CString n where
  bytes := if (cstr src).length < n then cstr src else []
  zero_notMem := by
    split
    · exact cstr_zero_notMem src
    · exact List.not_mem_nil
  length_lt := by
    split
    · assumption
    · exact hn

end CString

/-- `n` bytes of memory. -/
structure Buffer (n : Nat) where
  bytes : List UInt8
  length_eq : bytes.length = n

namespace Buffer

variable {n : Nat}

/-- All bytes of the buffer are `b`. -/
def fill (n : Nat) (b : UInt8) : Buffer n := ⟨List.replicate n b, List.length_replicate⟩

/-- The bytes `xs` are written at offset `off`; what does not fit is cut off. -/
def write (buf : Buffer n) (off : Nat) (xs : List UInt8) : Buffer n where
  bytes := buf.bytes.take off ++ xs.take (n - off) ++ buf.bytes.drop (off + xs.length)
  length_eq := by
    have := buf.length_eq
    simp only [List.length_append, List.length_take, List.length_drop]
    omega

/-- `memcpy_s(buf + off, n - off, xs, xs.length)`: the destination is zeroed if the bytes do not
fit. -/
def memcpyS (buf : Buffer n) (off : Nat) (xs : List UInt8) : Buffer n :=
  if xs.length ≤ n - off then buf.write off xs
  else buf.write off (List.replicate (n - off) 0)

theorem ext {a b : Buffer n} (h : a.bytes = b.bytes) : a = b := by
  cases a
  cases b
  simpa using h

theorem write_bytes {buf : Buffer n} {off : Nat} {xs : List UInt8} (h : off + xs.length ≤ n) :
    (buf.write off xs).bytes = buf.bytes.take off ++ xs ++ buf.bytes.drop (off + xs.length) := by
  simp only [write]
  rw [List.take_of_length_le (by omega : xs.length ≤ n - off)]

theorem take_write {buf : Buffer n} {off : Nat} {xs : List UInt8} (h : off + xs.length ≤ n) :
    (buf.write off xs).bytes.take (off + xs.length) = buf.bytes.take off ++ xs := by
  rw [write_bytes h]
  refine List.take_left' ?_
  rw [List.length_append, List.length_take, buf.length_eq]
  omega

theorem memcpyS_eq {buf : Buffer n} {off : Nat} {xs : List UInt8} (h : off + xs.length ≤ n) :
    buf.memcpyS off xs = buf.write off xs :=
  if_pos (by omega)

end Buffer

end Dwpal
