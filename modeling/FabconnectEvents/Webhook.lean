import Mathlib.Tactic.SplitIfs
import Mathlib.Algebra.Group.Nat.Basic

/-!
The webhook action's address guard, `isAddressUnsafe`. A `net.IP` is its byte slice; `To4` is
Go's, and indexing past the end of a slice is the panic `none`. The spec's blocks are stated on
the address as a 32-bit number, so the guard's byte tests are checked against them.
-/
namespace FabconnectEvents

/-- `net.IP.To4`: a 4-byte address as it is, the last four bytes of an IPv4-mapped 16-byte one
(`::ffff:a.b.c.d`), and otherwise `nil`. -/
def to4 (ip : List UInt8) : List UInt8 :=
  if ip.length = 4 then ip
  else if ip.length = 16 ∧ ip.take 10 = List.replicate 10 0 ∧ ip[10]? = some 0xff ∧ ip[11]? = some 0xff
  then ip.drop 12
  else []

/-- Go evaluates `&&` and `||` from the left and stops early, so `ip4[1]` is read only once
`ip4[0]` is 172 or 192. -/
def isAddressUnsafe (allowPrivateIPs : Bool) (ip : List UInt8) : Option Bool :=
  if allowPrivateIPs then some false else
  let ip4 := to4 ip
  match ip4[0]? with
  | none => none
  | some b0 =>
    if b0 = 0 ∨ 224 ≤ b0 ∨ b0 = 127 ∨ b0 = 10 then some true
    else if b0 = 172 then ip4[1]?.map fun b1 => decide (16 ≤ b1 ∧ b1 < 32)
    else if b0 = 192 then ip4[1]?.map fun b1 => decide (b1 = 168)
    else some false

def ipv4Value (ip4 : List UInt8) : Nat := ip4.foldl (fun a b => a * 256 + b.toNat) 0

/-- The blocks the spec rejects: 0/8, 10/8, 127/8, 172.16/12, 192.168/16, and 224.0.0.0 and
above. -/
def PrivateIPv4 (a : Nat) : Prop :=
  a / 2 ^ 24 = 0 ∨ a / 2 ^ 24 = 10 ∨ a / 2 ^ 24 = 127 ∨ a / 2 ^ 20 = 172 * 16 + 1 ∨
    a / 2 ^ 16 = 192 * 256 + 168 ∨ 224 * 2 ^ 24 ≤ a

instance (a : Nat) : Decidable (PrivateIPv4 a) := inferInstanceAs (Decidable (_ ∨ _))

theorem to4_cases (ip : List UInt8) : (to4 ip).length = 4 ∨ to4 ip = [] := by
  unfold to4
  split_ifs with h4 h16
  · exact .inl h4
  · exact .inl (by simp [h16.1])
  · exact .inr rfl

theorem UInt8.le_iff_toNat {a b : UInt8} : a ≤ b ↔ a.toNat ≤ b.toNat := Iff.rfl

theorem UInt8.lt_iff_toNat {a b : UInt8} : a < b ↔ a.toNat < b.toNat := Iff.rfl

theorem UInt8.eq_iff_toNat {a b : UInt8} : a = b ↔ a.toNat = b.toNat := ⟨congrArg _, UInt8.toNat.inj⟩

theorem ipv4Value_four (b0 b1 b2 b3 : UInt8) :
    ipv4Value [b0, b1, b2, b3] = b0.toNat * 2 ^ 24 + b1.toNat * 2 ^ 16 + b2.toNat * 2 ^ 8 + b3.toNat := by
  simp only [ipv4Value, List.foldl]
  omega

theorem ipv4Value_div (b0 b1 b2 b3 : UInt8) :
    ipv4Value [b0, b1, b2, b3] / 2 ^ 24 = b0.toNat ∧
      ipv4Value [b0, b1, b2, b3] / 2 ^ 20 = b0.toNat * 16 + b1.toNat / 16 ∧
      ipv4Value [b0, b1, b2, b3] / 2 ^ 16 = b0.toNat * 256 + b1.toNat := by
  have h1 := b1.toNat_lt_size
  have h2 := b2.toNat_lt_size
  have h3 := b3.toNat_lt_size
  simp only [UInt8.size] at h1 h2 h3
  rw [ipv4Value_four]
  refine ⟨by omega, by omega, by omega⟩

theorem privateIPv4_iff (b0 b1 b2 b3 : UInt8) :
    PrivateIPv4 (ipv4Value [b0, b1, b2, b3]) ↔
      (b0.toNat = 0 ∨ 224 ≤ b0.toNat ∨ b0.toNat = 127 ∨ b0.toNat = 10) ∨
        (b0.toNat = 172 ∧ 16 ≤ b1.toNat ∧ b1.toNat < 32) ∨ (b0.toNat = 192 ∧ b1.toNat = 168) := by
  obtain ⟨d24, d20, d16⟩ := ipv4Value_div b0 b1 b2 b3
  have h1 := b1.toNat_lt_size
  simp only [UInt8.size] at h1
  have h224 : 224 * 2 ^ 24 ≤ ipv4Value [b0, b1, b2, b3] ↔ 224 ≤ b0.toNat := by rw [← d24]; omega
  have h172 : b0.toNat * 16 + b1.toNat / 16 = 172 * 16 + 1 ↔ b0.toNat = 172 ∧ 16 ≤ b1.toNat ∧ b1.toNat < 32 := by
    omega
  have h192 : b0.toNat * 256 + b1.toNat = 192 * 256 + 168 ↔ b0.toNat = 192 ∧ b1.toNat = 168 := by omega
  rw [PrivateIPv4, d24, d20, d16, h224, h172, h192]
  simp only [or_comm, or_left_comm, or_assoc]

theorem isAddressUnsafe_ipv4 {ip : List UInt8} (h : (to4 ip).length = 4) :
    isAddressUnsafe false ip = some (decide (PrivateIPv4 (ipv4Value (to4 ip)))) := by
  obtain ⟨b0, b1, b2, b3, hq⟩ : ∃ b0 b1 b2 b3, to4 ip = [b0, b1, b2, b3] := by
    match to4 ip, h with
    | [b0, b1, b2, b3], _ => exact ⟨b0, b1, b2, b3, rfl⟩
  simp only [isAddressUnsafe, hq, privateIPv4_iff, Bool.false_eq_true, if_false, List.getElem?_cons_zero,
    List.getElem?_cons_succ, Option.map_some', UInt8.le_iff_toNat, UInt8.lt_iff_toNat, UInt8.eq_iff_toNat,
    UInt8.reduceToNat]
  split_ifs with first b172 b192 <;> simp only [Option.some.injEq, decide_eq_decide]
  · exact (decide_eq_true (.inl first)).symm
  · omega
  · omega
  · exact (decide_eq_false (by simp only [first, b172, b192, false_and, or_self, not_false_eq_true])).symm

theorem isAddressUnsafe_of_to4_nil {ip : List UInt8} (h : to4 ip = []) : isAddressUnsafe false ip = none := by
  simp [isAddressUnsafe, h]

/-- What the guard does on every address: nothing is unsafe when private addresses are allowed;
otherwise it applies the spec's blocks to an address with an IPv4 form and panics on any other. -/
theorem isAddressUnsafe_spec (allowPrivateIPs : Bool) (ip : List UInt8) :
    isAddressUnsafe allowPrivateIPs ip =
      if allowPrivateIPs then some false
      else if (to4 ip).length = 4 then some (decide (PrivateIPv4 (ipv4Value (to4 ip)))) else none := by
  cases allowPrivateIPs
  · rcases to4_cases ip with h | h
    · simp only [h, isAddressUnsafe_ipv4 h, if_true, Bool.false_eq_true, if_false]
    · simp [h, isAddressUnsafe_of_to4_nil h]
  · rfl

/-- The IPv6 loopback address `::1` has no IPv4 form: with private addresses refused, the guard
indexes the `nil` slice `To4` returns and panics. -/
theorem ipv6_loopback_panics_guard :
    (List.replicate 15 (0 : UInt8) ++ [1]).length = 16 ∧ to4 (List.replicate 15 0 ++ [1]) = [] ∧
      isAddressUnsafe false (List.replicate 15 0 ++ [1]) = none :=
  ⟨rfl, by decide, isAddressUnsafe_of_to4_nil (by decide)⟩

end FabconnectEvents
