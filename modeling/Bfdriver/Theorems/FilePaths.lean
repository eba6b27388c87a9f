import Bfdriver.Uefi.Driver

/-! # The device path of a file

What `GenerateFileDP` makes is what `PrintDevicePath` walks over: the nodes of the boot volume, and one with the path of
the file. The length field of that node has 16 bits, and the firmware copies as much of the node as the field says, so
that a path which does not fit is cut. -/

namespace Bfdriver.Uefi
open DevicePath

/-! ### Walking over a path -/

/-- What is printed for a node whose text, if it has one, ends within it. -/
def nodePrinted (n : Node) : Option (List Printed) := printNode n.type n.subType n.data

section Walk
variable {ns : List Node} {n : Node} {rest : List UInt8} {shown : List Printed} {fuel : Nat}

theorem printNode_append (h : nodePrinted n = some shown) : printNode n.type n.subType (n.data ++ rest) = some shown := by
  unfold nodePrinted printNode at h
  unfold printNode
  split at h
  · rename_i text
    obtain ⟨format, read, rfl⟩ := Option.map_eq_some_iff.mp h
    rw [if_pos text, readWide_append read]
    rfl
  · rename_i plain
    rw [if_neg plain, h]

/-- A round of the loop gets from a node to the next one. -/
theorem printNodes_node (h : nodePrinted n = some shown) :
    printNodes (fuel + 1) (n.bytes ++ rest) = (printNodes fuel rest).map (shown ++ ·) := by
  have next := n.drop_bytes rest
  unfold Node.bytes at next ⊢
  simp only [header, le16, List.cons_append, List.nil_append] at next ⊢
  rw [printNodes, if_neg n.not_end]
  rw [ofLe16_bytes, next, printNode_append h]
  cases printNodes fuel rest <;> rfl

theorem printNodes_bytes (h : ∀ n ∈ ns, (nodePrinted n).isSome) (enough : ns.length < fuel) :
    printNodes fuel (bytes ns) = some (ns.flatMap fun n => (nodePrinted n).getD []) := by
  induction ns generalizing fuel with
  | nil =>
    obtain ⟨rounds, rfl⟩ := Nat.exists_eq_succ_of_ne_zero (Nat.ne_of_gt enough)
    rfl
  | cons n ns ih =>
    obtain ⟨here, later⟩ := List.forall_mem_cons.mp h
    obtain ⟨shown, hshown⟩ := Option.isSome_iff_exists.mp here
    obtain ⟨rounds, rfl⟩ := Nat.exists_eq_succ_of_ne_zero (Nat.ne_of_gt (Nat.zero_lt_of_lt enough))
    rw [bytes_cons, printNodes_node hshown, ih later (Nat.lt_of_succ_lt_succ enough), List.flatMap_cons, hshown]
    rfl

end Walk

/-! ### The node of a path -/

/-- The node with as much of a path as the length field says, which has to count the header. -/
def pathNode (path : WideString) (described : headerSize ≤ (strSize path + headerSize) % UInt16.size) : Node where
  type := 4
  subType := 4
  data := path.bytes.take ((strSize path + headerSize) % UInt16.size - headerSize)
  not_end := by decide
  fits := by
    have size := Nat.mod_lt (strSize path + headerSize) (show 0 < UInt16.size by decide)
    have taken := List.length_take_le ((strSize path + headerSize) % UInt16.size - headerSize) path.bytes
    omega

section Node
variable {path : WideString} (described : headerSize ≤ (strSize path + headerSize) % UInt16.size)

theorem length_pathNode : (pathNode path described).data.length + headerSize = (strSize path + headerSize) % UInt16.size := by
  have whole : path.bytes.length = strSize path := path.length_bytes
  have le := Nat.mod_le (strSize path + headerSize) UInt16.size
  show (path.bytes.take _).length + _ = _
  rw [List.length_take, whole]
  omega

/-- In memory the node is followed by the rest of the path. -/
theorem targetPathNode_eq : ∃ rest, targetPathNode path = (pathNode path described).bytes ++ rest := by
  refine ⟨path.bytes.drop ((strSize path + headerSize) % UInt16.size - headerSize), ?_⟩
  have length : UInt16.ofNat (strSize path + 4) = UInt16.ofNat ((strSize path + headerSize) % UInt16.size) := by
    refine UInt16.toNat_inj.mp ?_
    simp [headerSize]
  unfold targetPathNode Node.bytes
  rw [length_pathNode, List.append_assoc, length]
  exact congrArg _ (List.take_append_drop ..).symm

/-- The node has the whole path exactly if the length of the node fits. -/
theorem pathNode_data_iff : (pathNode path described).data = path.bytes ↔ strSize path + headerSize < UInt16.size := by
  have whole : path.bytes.length = strSize path := path.length_bytes
  constructor
  · intro same
    have length := length_pathNode described
    rw [same, whole] at length
    exact length ▸ Nat.mod_lt _ (by decide)
  · intro fits
    refine List.take_of_length_le ?_
    rw [Nat.mod_eq_of_lt fits, Nat.add_sub_cancel]
    exact Nat.le_of_eq whole

end Node

/-- A driver that was loaded from a volume behind a PCI root bridge. -/
def testFiles : FileServices where
  loadedImage := 0
  devicePath := 0
  volume := [{ type := 2, subType := 1, data := [0xd0, 0x41, 0x03, 0x0a, 0, 0, 0, 0], not_end := by decide, fits := by decide }]
  allocatePool := 0
  appendDeviceNode := appendNode
  appends := appendNode_bytes

end Bfdriver.Uefi
