import ZimaScope.Ebpf.Domain

/-! # Network byte order

Numbers as bytes in network order, and what a cursor over a byte slice reads at a
position that is known by the bytes from it on.
-/

namespace ZimaScope

/-- `u16::to_be_bytes`. -/
def u16Bytes (n : UInt16) : List UInt8 := [.ofNat (n.toNat / 256), .ofNat n.toNat]

/-- `u32::to_be_bytes`. -/
def u32Bytes (n : UInt32) : List UInt8 :=
  [.ofNat (n.toNat / 16777216), .ofNat (n.toNat / 65536), .ofNat (n.toNat / 256), .ofNat n.toNat]

@[simp]
theorem length_u16Bytes (n : UInt16) : (u16Bytes n).length = 2 := rfl

@[simp]
theorem length_u32Bytes (n : UInt32) : (u32Bytes n).length = 4 := rfl

theorem exists_u32Bytes (a b c d : UInt8) : ∃ n, u32Bytes n = [a, b, c, d] := by
  let n := a.toNat * 16777216 + b.toNat * 65536 + c.toNat * 256 + d.toNat
  have ha := a.toNat_lt
  have hb := b.toNat_lt
  have hc := c.toNat_lt
  have hd := d.toNat_lt
  have hn : (UInt32.ofNat n).toNat = n := by
    rw [UInt32.toNat_ofNat']
    omega
  have hbyte (k : ℕ) (byte : UInt8) (h : k % 256 = byte.toNat) : UInt8.ofNat k = byte := by
    apply UInt8.toNat_inj.mp
    rw [UInt8.toNat_ofNat', h]
  refine ⟨.ofNat n, ?_⟩
  unfold u32Bytes
  rw [hn, hbyte _ a (by omega), hbyte _ b (by omega), hbyte _ c (by omega), hbyte _ d (by omega)]

namespace MemoryCursor

theorem ofBeBytes_u16Bytes (n : UInt16) : UInt16.ofNat (ofBeBytes (u16Bytes n)) = n := by
  apply UInt16.toNat_inj.mp
  have h := n.toNat_lt
  simp only [ofBeBytes, u16Bytes, List.foldl_cons, List.foldl_nil, UInt8.toNat_ofNat',
    UInt16.toNat_ofNat']
  omega

theorem ofBeBytes_u32Bytes (n : UInt32) : UInt32.ofNat (ofBeBytes (u32Bytes n)) = n := by
  apply UInt32.toNat_inj.mp
  have h := n.toNat_lt
  simp only [ofBeBytes, u32Bytes, List.foldl_cons, List.foldl_nil, UInt8.toNat_ofNat',
    UInt32.toNat_ofNat']
  omega

theorem slice_append (bytes rest : List UInt8) : slice (bytes ++ rest) 0 bytes.length = some bytes := by
  simp [slice]

theorem slice_drop (data : List UInt8) {p : ℕ} (hp : p ≤ data.length) (k len : ℕ) :
    slice data (p + k) len = slice (data.drop p) k len := by
  unfold slice
  rw [List.drop_drop, List.length_drop]
  congr 1
  rw [eq_iff_iff]
  omega

end MemoryCursor

open MemoryCursor

/-- A slice of bytes that holds `rest` from position `p` on. -/
def HasAt (data : List UInt8) (p : ℕ) (rest : List UInt8) : Prop :=
  p ≤ data.length ∧ data.drop p = rest

namespace HasAt

variable {data rest front bytes : List UInt8} {p : ℕ}

theorem start (data : List UInt8) : HasAt data 0 data := ⟨Nat.zero_le _, rfl⟩

theorem append : HasAt (front ++ rest) front.length rest := by
  constructor
  · simp
  · exact List.drop_left

/-- What lies behind the first of the bytes at a position. -/
theorem skip (h : HasAt data p (front ++ rest)) : HasAt data (p + front.length) rest := by
  obtain ⟨hp, hdrop⟩ := h
  constructor
  · have hlen := congrArg List.length hdrop
    rw [List.length_drop, List.length_append] at hlen
    omega
  · rw [← List.drop_drop, hdrop, List.drop_left]

theorem tail {byte : UInt8} (h : HasAt data p (byte :: rest)) : HasAt data (p + 1) rest :=
  skip (show HasAt data p ([byte] ++ rest) from h)

theorem cast {q : ℕ} (h : HasAt data p rest) (hq : q = p) : HasAt data q rest := hq ▸ h

theorem length_eq (h : HasAt data p rest) : data.length = p + rest.length := by
  have hlen := congrArg List.length h.2
  rw [List.length_drop] at hlen
  have hp := h.1
  omega

theorem readU8 (h : HasAt data p rest) (k : ℕ) : (memoryCursor data).readU8 (p + k) = rest[k]? := by
  rw [← h.2, List.getElem?_drop]
  rfl

theorem readU16Be (h : HasAt data p rest) (k : ℕ) :
    (memoryCursor data).readU16Be (p + k) = (memoryCursor rest).readU16Be k := by
  rw [← h.2]
  exact congrArg (Option.map _) (slice_drop data h.1 k 2)

theorem readU32Be (h : HasAt data p rest) (k : ℕ) :
    (memoryCursor data).readU32Be (p + k) = (memoryCursor rest).readU32Be k := by
  rw [← h.2]
  exact congrArg (Option.map _) (slice_drop data h.1 k 4)

theorem readByte {byte : UInt8} (h : HasAt data p (byte :: rest)) :
    (memoryCursor data).readU8 p = some byte := h.readU8 0

theorem readWord {n : UInt16} (h : HasAt data p (u16Bytes n ++ rest)) :
    (memoryCursor data).readU16Be p = some n := by
  have hslice : slice (u16Bytes n ++ rest) 0 2 = some (u16Bytes n) := slice_append _ rest
  rw [← Nat.add_zero p, h.readU16Be 0]
  simp only [memoryCursor, hslice, Option.map_some, ofBeBytes_u16Bytes]

theorem readDoubleWord {n : UInt32} (h : HasAt data p (u32Bytes n ++ rest)) :
    (memoryCursor data).readU32Be p = some n := by
  have hslice : slice (u32Bytes n ++ rest) 0 4 = some (u32Bytes n) := slice_append _ rest
  rw [← Nat.add_zero p, h.readU32Be 0]
  simp only [memoryCursor, hslice, Option.map_some, ofBeBytes_u32Bytes]

theorem readBytes (h : HasAt data p (bytes ++ rest)) :
    (memoryCursor data).readBytes p bytes.length = some bytes := by
  have hslice := slice_drop data h.1 0 bytes.length
  rw [h.2, slice_append, Nat.add_zero] at hslice
  exact hslice

end HasAt

end ZimaScope
