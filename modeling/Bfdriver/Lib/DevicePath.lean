import Mathlib.Data.List.Basic

/-! # Device paths

A device path is a chain of nodes, each with its own length in its header, and a node of type `0x7F` after the last
one. Words are little-endian, and a wide string ends with a zero character. -/

namespace DevicePath

/-! ### Words -/

/-- The bytes of a word of 16 bits. -/
def le16 (w : UInt16) : List UInt8 := [w.toUInt8, (w >>> 8).toUInt8]

def ofLe16 (low high : UInt8) : UInt16 := low.toUInt16 ||| high.toUInt16 <<< 8

@[simp] theorem ofLe16_bytes (w : UInt16) : ofLe16 w.toUInt8 (w >>> 8).toUInt8 = w := by
  have bound := w.toNat_lt
  have split : w.toNat % 2 ^ 8 ||| w.toNat >>> 8 <<< 8 = w.toNat := by
    rw [Nat.or_comm, ← Nat.shiftLeft_add_eq_or_of_lt (Nat.mod_lt _ (by decide))]
    omega
  have high : w.toNat >>> 8 % 2 ^ 8 = w.toNat >>> 8 := Nat.mod_eq_of_lt (by omega)
  have shifted : w.toNat >>> 8 <<< 8 % 2 ^ 16 = w.toNat >>> 8 <<< 8 := Nat.mod_eq_of_lt (by omega)
  refine UInt16.toNat_inj.mp ?_
  rw [← split]
  simp only [ofLe16, UInt16.toNat_or, UInt16.toNat_shiftLeft, UInt8.toNat_toUInt16, UInt16.toNat_toUInt8,
    UInt16.toNat_shiftRight]
  rw [show UInt16.toNat 8 % 16 = 8 from rfl, high, shifted]

/-! ### Wide strings -/

/-- A string, without the zero character that ends it in memory. -/
structure WideString where
  chars : List UInt16
  no_nul : 0 ∉ chars

/-- The bytes of the string in memory. -/
def WideString.bytes (s : WideString) : List UInt8 := s.chars.flatMap le16 ++ le16 0

/-- The characters up to the first zero character, which has to be there. -/
def readWide : List UInt8 → Option (List UInt16)
  | low :: high :: rest =>
    if ofLe16 low high = 0 then some [] else (readWide rest).map (ofLe16 low high :: ·)
  | _ => none

/-- What comes after a string does not matter to its reader. -/
theorem readWide_append {l rest : List UInt8} {cs : List UInt16} (h : readWide l = some cs) :
    readWide (l ++ rest) = some cs := by
  induction l using readWide.induct generalizing cs with
  | case1 low high l nul =>
    rw [readWide, if_pos nul] at h
    rw [List.cons_append, List.cons_append, readWide, if_pos nul, h]
  | case2 low high l more ih =>
    rw [readWide, if_neg more] at h
    obtain ⟨cs, read, rfl⟩ := Option.map_eq_some_iff.mp h
    rw [List.cons_append, List.cons_append, readWide, if_neg more, ih read]
    rfl
  | case3 l short =>
    rw [readWide.eq_2 l short] at h
    cases h

theorem WideString.readWide_bytes (s : WideString) : readWide s.bytes = some s.chars := by
  obtain ⟨chars, no_nul⟩ := s
  induction chars with
  | nil => rfl
  | cons c cs ih =>
    obtain ⟨first, rest⟩ := not_or.mp (mt List.mem_cons.mpr no_nul)
    have read := ih rest
    unfold WideString.bytes at read ⊢
    rw [List.flatMap_cons, List.append_assoc, le16, List.cons_append, List.cons_append, List.nil_append, readWide,
      ofLe16_bytes, if_neg (Ne.symm first), read]
    rfl

/-- Two bytes for each character, and two for the end. -/
theorem WideString.length_bytes (s : WideString) : s.bytes.length = 2 * (s.chars.length + 1) := by
  simp [bytes, le16, List.length_flatMap]
  omega

/-! ### Nodes -/

/-- The length of the header of a node. -/
def headerSize : Nat := 4

/-- A node that its own length field can describe, other than the one at the end. -/
structure Node where
  type : UInt8
  subType : UInt8
  data : List UInt8
  not_end : type ≠ 0x7F
  fits : data.length + headerSize < UInt16.size

/-- A header for some number of bytes, itself included. -/
def header (type subType : UInt8) (length : UInt16) : List UInt8 := type :: subType :: le16 length

def Node.bytes (n : Node) : List UInt8 := header n.type n.subType (UInt16.ofNat (n.data.length + headerSize)) ++ n.data

def endNode : List UInt8 := header 0x7F 0xFF 4

/-- The bytes of a device path. -/
def bytes (ns : List Node) : List UInt8 := ns.flatMap Node.bytes ++ endNode

@[simp] theorem bytes_nil : bytes [] = endNode := rfl

theorem bytes_cons (n : Node) (ns : List Node) : bytes (n :: ns) = n.bytes ++ bytes ns := by
  simp [bytes]

/-- The length field is right. -/
theorem Node.length_bytes (n : Node) : n.bytes.length = (UInt16.ofNat (n.data.length + headerSize)).toNat := by
  rw [UInt16.toNat_ofNat_of_lt' n.fits]
  simp [bytes, header, le16, headerSize]

/-- It leads from a node to the next one. -/
theorem Node.drop_bytes (n : Node) (rest : List UInt8) :
    (n.bytes ++ rest).drop (UInt16.ofNat (n.data.length + headerSize)).toNat = rest := by
  rw [← n.length_bytes, List.drop_left]

/-! ### Adding a node -/

/-- The length in the header of a node. -/
def nodeLength : List UInt8 → Nat
  | _ :: _ :: low :: high :: _ => (ofLe16 low high).toNat
  | _ => 0

/-- The path with a copy of one more node. -/
def appendNode (path node : List UInt8) : List UInt8 :=
  path.take (path.length - endNode.length) ++ node.take (nodeLength node) ++ endNode

theorem appendNode_bytes (ns : List Node) (n : Node) (rest : List UInt8) :
    appendNode (bytes ns) (n.bytes ++ rest) = bytes (ns ++ [n]) := by
  have length : nodeLength (n.bytes ++ rest) = n.bytes.length := by
    rw [n.length_bytes]
    exact congrArg UInt16.toNat (ofLe16_bytes _)
  unfold appendNode
  rw [length, List.take_left, bytes, List.length_append, Nat.add_sub_cancel, List.take_left]
  simp [bytes]

end DevicePath
