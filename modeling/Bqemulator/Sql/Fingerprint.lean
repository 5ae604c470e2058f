import Mathlib

/-!
# Fingerprints

`FARM_FINGERPRINT` is computed by a port of FarmHash over unbounded integers, with masks. Up to 64
bytes the port is the reference. For longer inputs the first word is mixed in twice, and a sum of
the end has another summand.
-/

namespace Bqemulator

def fhK0 : ℕ := 0xC3A5C85C97CB3127

def fhK1 : ℕ := 0xB492B66FBE98F273

def fhK2 : ℕ := 0x9AE16A3B2F90404F

variable (n : ℕ)

/-- The mask of 64 bits, `n & _U64_MASK`. -/
def u64 : ℕ := n % 2 ^ 64

def littleEndian (bytes : List UInt8) : ℕ := bytes.foldr (fun b n => b.toNat + 256 * n) 0

/-- **The state of the block loop**, in the port and in the reference. -/
structure HashState (α : Type) where
  x : α
  y : α
  z : α
  v : α × α
  w : α × α

variable (data : List UInt8)

-- all calls stay within the data, so that `unpack_from` does not raise
variable (offset : ℕ)

def fhFetch64 : ℕ := littleEndian ((data.drop offset).take 8)

def fhFetch32 : ℕ := littleEndian ((data.drop offset).take 4)

def fhRotate (val shift : ℕ) : ℕ :=
  if shift = 0 then u64 val else u64 (u64 val >>> shift ||| u64 val <<< (64 - shift))

def fhShiftMix (val : ℕ) : ℕ := u64 (val ^^^ val >>> 47)

def fhHashLen16Mul (u v mul : ℕ) : ℕ :=
  let a := fhShiftMix (u64 ((u ^^^ v) * mul))
  let b := fhShiftMix (u64 ((v ^^^ a) * mul))
  u64 (b * mul)

def fhHashLen0To16 : ℕ :=
  let length := data.length
  let mul := u64 (fhK2 + length * 2)
  if 8 ≤ length then
    let a := u64 (fhFetch64 data 0 + fhK2)
    let b := fhFetch64 data (length - 8)
    let c := u64 (fhRotate b 37 * mul + a)
    let d := u64 ((fhRotate a 25 + b) * mul)
    fhHashLen16Mul c d mul
  else if 4 ≤ length then
    let a := fhFetch32 data 0
    fhHashLen16Mul (u64 (length + a <<< 3)) (fhFetch32 data (length - 4)) mul
  else if 0 < length then
    let a := (data.getD 0 0).toNat
    let b := (data.getD (length >>> 1) 0).toNat
    let c := (data.getD (length - 1) 0).toNat
    let y := u64 (a + b <<< 8)
    let z := u64 (length + c <<< 2)
    u64 (fhShiftMix (u64 ((y * fhK2) ^^^ (z * fhK0))) * fhK2)
  else fhK2

def fhHashLen17To32 : ℕ :=
  let length := data.length
  let mul := u64 (fhK2 + length * 2)
  let a := u64 (fhFetch64 data 0 * fhK1)
  let b := fhFetch64 data 8
  let c := u64 (fhFetch64 data (length - 8) * mul)
  let d := u64 (fhFetch64 data (length - 16) * fhK2)
  fhHashLen16Mul (u64 (fhRotate (u64 (a + b)) 43 + fhRotate c 30 + d))
    (u64 (a + fhRotate (u64 (b + fhK2)) 18 + c)) mul

def fhHashLen33To64 : ℕ :=
  let length := data.length
  let mul := u64 (fhK2 + length * 2)
  let a := u64 (fhFetch64 data 0 * fhK2)
  let b := fhFetch64 data 8
  let c := u64 (fhFetch64 data (length - 8) * mul)
  let d := u64 (fhFetch64 data (length - 16) * fhK2)
  let y := u64 (fhRotate (u64 (a + b)) 43 + fhRotate c 30 + d)
  let z := fhHashLen16Mul y (u64 (a + fhRotate (u64 (b + fhK2)) 18 + c)) mul
  let e := u64 (fhFetch64 data 16 * mul)
  let f := fhFetch64 data 24
  let g := u64 ((y + fhFetch64 data (length - 32)) * mul)
  let h := u64 ((z + fhFetch64 data (length - 24)) * mul)
  fhHashLen16Mul (u64 (fhRotate (u64 (e + f)) 43 + fhRotate g 30 + h))
    (u64 (e + fhRotate (u64 (f + a)) 18 + g)) mul

def fhWeakHashLen32WithSeeds (offset a b : ℕ) : ℕ × ℕ :=
  let w := fhFetch64 data offset
  let x := fhFetch64 data (offset + 8)
  let y := fhFetch64 data (offset + 16)
  let z := fhFetch64 data (offset + 24)
  let c := u64 (a + w)
  let b := fhRotate (u64 (b + c + z)) 21
  let a := u64 (u64 (c + x) + y)
  let b := u64 (b + fhRotate a 44)
  (u64 (a + z), u64 (b + c))

/-- One mixing of 64 bytes: in the loop with `k1` and the factor 1, at the end with `mul` and
the factor 9. -/
def fhMix (mul factor offset : ℕ) (s : HashState ℕ) : HashState ℕ :=
  let x := u64 (fhRotate (u64 (s.x + s.y + s.v.1 + fhFetch64 data (offset + 8))) 37 * mul)
  let y := u64 (fhRotate (u64 (s.y + s.v.2 + fhFetch64 data (offset + 48))) 42 * mul)
  let x := u64 (x ^^^ u64 (s.w.2 * factor))
  let y := u64 (y + u64 (s.v.1 * factor) + fhFetch64 data (offset + 40))
  let z := u64 (fhRotate (u64 (s.z + s.w.1)) 33 * mul)
  let v := fhWeakHashLen32WithSeeds data offset (u64 (s.v.2 * mul)) (u64 (x + s.w.1))
  let w := fhWeakHashLen32WithSeeds data (offset + 32) (u64 (z + s.w.2))
    (u64 (y + fhFetch64 data (offset + 16)))
  ⟨z, y, x, v, w⟩

/-- The block loop, with as many turns as it can need. -/
def fhLoop : ℕ → ℕ → ℕ → HashState ℕ → HashState ℕ
  | 0, _, _, s => s
  | turns + 1, offset, remaining, s =>
    if 64 < remaining then
      fhLoop turns (offset + 64) (remaining - 64) (fhMix data fhK1 1 offset s)
    else s

def fhHashLenLong : ℕ :=
  let length := data.length
  let x := u64 (81 * fhK2 + fhFetch64 data 0)
  let y := u64 (81 * fhK1 + 113)
  let z := u64 (fhShiftMix (u64 (y * fhK2 + 113)) * fhK2)
  let x := u64 (x * fhK2 + fhFetch64 data 0)
  let s := fhLoop data length 0 length ⟨x, y, z, (0, 0), (0, 0)⟩
  let mul := u64 (fhK1 + (s.z % 256) <<< 1)
  let w := u64 (s.w.1 + (length - 1) % 64)
  let v := u64 (s.v.1 + s.z)
  let w := u64 (w + v)
  let v := u64 (v + w)
  let s := fhMix data mul 9 (length - 64) { s with v := (v, s.v.2), w := (w, s.w.2) }
  fhHashLen16Mul (fhHashLen16Mul s.v.1 s.w.1 mul + u64 (fhShiftMix s.y * fhK0) + s.z)
    (u64 (fhHashLen16Mul s.v.2 s.w.2 mul + s.x)) mul

/-- The port. -/
def farmFingerprint64 : ℕ :=
  if data.length ≤ 16 then fhHashLen0To16 data
  else if data.length ≤ 32 then fhHashLen17To32 data
  else if data.length ≤ 64 then fhHashLen33To64 data
  else fhHashLenLong data

/-! ## The reference -/

namespace Farmhashna

abbrev Word := BitVec 64

def word : Word := BitVec.ofNat 64 n

def fetch : Word := word (littleEndian ((data.drop offset).take 8))

def fetch32 : Word := word (littleEndian ((data.drop offset).take 4))

def shiftMix (val : Word) : Word := val ^^^ val >>> 47

def hashLen16 (u v mul : Word) : Word :=
  let a := shiftMix ((u ^^^ v) * mul)
  let b := shiftMix ((v ^^^ a) * mul)
  b * mul

def hashLen0to16 : Word :=
  let len := data.length
  let mul := word fhK2 + word len * word 2
  if 8 ≤ len then
    let a := fetch data 0 + word fhK2
    let b := fetch data (len - 8)
    let c := b.rotateRight 37 * mul + a
    let d := (a.rotateRight 25 + b) * mul
    hashLen16 c d mul
  else if 4 ≤ len then
    hashLen16 (word len + fetch32 data 0 <<< 3) (fetch32 data (len - 4)) mul
  else if 0 < len then
    let byte i := word (data.getD i 0).toNat
    let y := byte 0 + byte (len >>> 1) <<< 8
    let z := word len + byte (len - 1) <<< 2
    shiftMix (y * word fhK2 ^^^ z * word fhK0) * word fhK2
  else word fhK2

def hashLen17to32 : Word :=
  let len := data.length
  let mul := word fhK2 + word len * word 2
  let a := fetch data 0 * word fhK1
  let b := fetch data 8
  let c := fetch data (len - 8) * mul
  let d := fetch data (len - 16) * word fhK2
  hashLen16 ((a + b).rotateRight 43 + c.rotateRight 30 + d)
    (a + (b + word fhK2).rotateRight 18 + c) mul

def hashLen33to64 : Word :=
  let len := data.length
  let mul := word fhK2 + word len * word 2
  let a := fetch data 0 * word fhK2
  let b := fetch data 8
  let c := fetch data (len - 8) * mul
  let d := fetch data (len - 16) * word fhK2
  let y := (a + b).rotateRight 43 + c.rotateRight 30 + d
  let z := hashLen16 y (a + (b + word fhK2).rotateRight 18 + c) mul
  let e := fetch data 16 * mul
  let f := fetch data 24
  let g := (y + fetch data (len - 32)) * mul
  let h := (z + fetch data (len - 24)) * mul
  hashLen16 ((e + f).rotateRight 43 + g.rotateRight 30 + h) (e + (f + a).rotateRight 18 + g) mul

def weakHashLen32WithSeeds (a b : Word) : Word × Word :=
  let z := fetch data (offset + 24)
  let c := a + fetch data offset
  let b := (b + c + z).rotateRight 21
  let a := c + fetch data (offset + 8) + fetch data (offset + 16)
  (a + z, b + a.rotateRight 44 + c)

/-- One mixing of 64 bytes, ending with the exchange of `x` and `z`. -/
def mix (mul factor : Word) (offset : ℕ) (s : HashState Word) : HashState Word :=
  let x := (s.x + s.y + s.v.1 + fetch data (offset + 8)).rotateRight 37 * mul ^^^ s.w.2 * factor
  let y := (s.y + s.v.2 + fetch data (offset + 48)).rotateRight 42 * mul + s.v.1 * factor +
    fetch data (offset + 40)
  let z := (s.z + s.w.1).rotateRight 33 * mul
  ⟨z, y, x, weakHashLen32WithSeeds data offset (s.v.2 * mul) (x + s.w.1),
    weakHashLen32WithSeeds data (offset + 32) (z + s.w.2) (y + fetch data (offset + 16))⟩

/-- The reference, over words of 64 bits. -/
def hash64 : Word :=
  let len := data.length
  if len ≤ 16 then hashLen0to16 data
  else if len ≤ 32 then hashLen17to32 data
  else if len ≤ 64 then hashLen33to64 data
  else
    let y := word 81 * word fhK1 + word 113
    let z := shiftMix (y * word fhK2 + word 113) * word fhK2
    let x := word 81 * word fhK2 + fetch data 0
    let block s i := mix data (word fhK1) (word 1) (64 * i) s
    let s := (List.range ((len - 1) / 64)).foldl block ⟨x, y, z, (0, 0), (0, 0)⟩
    let mul := word fhK1 + (s.z &&& word 255) <<< 1
    let w := s.w.1 + word ((len - 1) % 64)
    let v := s.v.1 + w
    let w := w + v
    let s := mix data mul (word 9) (len - 64) { s with v := (v, s.v.2), w := (w, s.w.2) }
    hashLen16 (hashLen16 s.v.1 s.w.1 mul + shiftMix s.y * word fhK0 + s.z)
      (hashLen16 s.v.2 s.w.2 mul + s.x) mul

end Farmhashna

/-! ## Inputs of at most 64 bytes -/

open Farmhashna

variable {data}

theorem u64_lt : u64 n < 2 ^ 64 := Nat.mod_lt n (by decide)

-- `word` carries the arithmetic of the port to that of the reference, and drops the masks
@[simp] theorem word_u64 : word (u64 n) = word n := by
  apply BitVec.eq_of_toNat_eq
  simp [word, u64]

@[simp] theorem word_add (m n : ℕ) : word (m + n) = word m + word n := BitVec.ofNat_add m n

@[simp] theorem word_mul (m n : ℕ) : word (m * n) = word m * word n := BitVec.ofNat_mul m n

@[simp] theorem word_xor (m n : ℕ) : word (m ^^^ n) = word m ^^^ word n := BitVec.ofNat_xor

@[simp] theorem word_shiftLeft (n k : ℕ) : word (n <<< k) = word n <<< k := by
  apply BitVec.eq_of_toNat_eq
  simp [word, Nat.shiftLeft_eq]

-- a shift to the right needs the mask before it
@[simp] theorem word_shiftRight (n k : ℕ) : word (u64 n >>> k) = word n >>> k := by
  apply BitVec.eq_of_toNat_eq
  have hl : u64 n >>> k < 2 ^ 64 := Nat.lt_of_le_of_lt (Nat.shiftRight_le _ _) (u64_lt n)
  simpa [word, u64] using Nat.mod_eq_of_lt hl

@[simp] theorem word_fhShiftMix : word (fhShiftMix (u64 n)) = shiftMix (word n) := by
  simp [fhShiftMix, shiftMix]

@[simp] theorem word_fhRotate {s : ℕ} (hl : s < 64) :
    word (fhRotate n s) = (word n).rotateRight s := by
  rw [BitVec.rotateRight_def, Nat.mod_eq_of_lt hl, fhRotate]
  split_ifs with hz
  · simp [hz]
  · rw [word_u64, ← word_shiftRight, ← word_u64 n, ← word_shiftLeft]
    exact BitVec.ofNat_or

@[simp] theorem word_fhFetch64 : word (fhFetch64 data offset) = fetch data offset := rfl

@[simp] theorem word_fhFetch32 : word (fhFetch32 data offset) = fetch32 data offset := rfl

@[simp] theorem word_fhHashLen16Mul (u v mul : ℕ) :
    word (fhHashLen16Mul u v mul) = hashLen16 (word u) (word v) (word mul) := by
  simp [fhHashLen16Mul, hashLen16]

theorem word_fhHashLen0To16 : word (fhHashLen0To16 data) = hashLen0to16 data := by
  simp [fhHashLen0To16, hashLen0to16, apply_ite word]

theorem word_fhHashLen17To32 : word (fhHashLen17To32 data) = hashLen17to32 data := by
  simp [fhHashLen17To32, hashLen17to32]

theorem word_fhHashLen33To64 : word (fhHashLen33To64 data) = hashLen33to64 data := by
  simp [fhHashLen33To64, hashLen33to64]

/-- Every fingerprint fits into 64 bits. -/
theorem farmFingerprint64_lt : farmFingerprint64 data < 2 ^ 64 := by
  unfold farmFingerprint64 fhHashLen0To16 fhHashLen17To32 fhHashLen33To64 fhHashLenLong
  simp only [fhHashLen16Mul]
  split_ifs <;> first | exact u64_lt _ | decide

/-- **The port is the reference on inputs of at most 64 bytes.** -/
theorem farmFingerprint64_eq (h : data.length ≤ 64) :
    farmFingerprint64 data = (Farmhashna.hash64 data).toNat := by
  have hw : word (farmFingerprint64 data) = Farmhashna.hash64 data := by
    rw [farmFingerprint64, Farmhashna.hash64, if_pos h, if_pos h, apply_ite word, apply_ite word,
      word_fhHashLen0To16, word_fhHashLen17To32, word_fhHashLen33To64]
  rw [← hw, word, BitVec.toNat_ofNat, Nat.mod_eq_of_lt farmFingerprint64_lt]

theorem farmFingerprint64_hello :
    farmFingerprint64 [104, 101, 108, 108, 111] = 13009744463427800296 ∧
      farmFingerprint64 [104, 101, 108, 108, 111] =
        (hash64 [104, 101, 108, 108, 111]).toNat :=
  ⟨by decide +kernel, farmFingerprint64_eq (by decide)⟩

theorem farmFingerprint64_long :
    farmFingerprint64 (List.replicate 65 97) ≠
      (hash64 (List.replicate 65 97)).toNat := by
  decide +kernel

end Bqemulator
