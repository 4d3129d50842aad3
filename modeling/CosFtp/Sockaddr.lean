/-
# Socket addresses

A `struct vsf_sysutil_sockaddr` holds an IPv4 or an IPv6 address as raw bytes
and a port. `vsf_sysutil_sockaddr_addr_equal` compares two of them, across the
families through the v4-mapped form. `Sockaddr.ip` is the host an address
stands for, and the comparison decides whether two of them are the same
(`Sockaddr.addrEqual_iff`).

The parsers of ipaddrparse.c follow. `vsf_sysutil_parse_ipv6` hands out a
buffer of which 16 bytes are then copied, also where the text gave fewer: the
rest is the terminating NUL and whatever stood behind it, `stale` here.
-/
import CosFtp.Str
import CosFtp.Tunables

namespace CosFtp

/-- An address of `n` raw bytes. -/
abbrev RawAddr (n : ℕ) := {b : Bytes // b.length = n}

def zeroAddr : RawAddr 16 := ⟨List.replicate 16 0, rfl⟩

/-- A `struct vsf_sysutil_sockaddr`, less the scope id. -/
inductive Sockaddr where
  | inet (addr : RawAddr 4) (port : UInt16)
  | inet6 (addr : RawAddr 16) (port : UInt16)
  deriving DecidableEq

/-- The pattern of `vsf_sysutil_sockaddr_ipv6_v4`. -/
def v4Pattern : Bytes := [0, 0, 0, 0, 0, 0, 0, 0, 0, 0, 255, 255]

namespace Sockaddr

def isIpv6 : Sockaddr → Bool
  | inet .. => false
  | inet6 .. => true

def getPort : Sockaddr → UInt16
  | inet _ p => p
  | inet6 _ p => p

def setPort (port : UInt16) : Sockaddr → Sockaddr
  | inet a _ => inet a port
  | inet6 a _ => inet6 a port

/-- `vsf_sysutil_sockaddr_clone`: a new structure, all zero but the address. -/
def clone : Sockaddr → Sockaddr
  | inet a _ => inet a 0
  | inet6 a _ => inet6 a 0

/-- `vsf_sysutil_sockaddr_ipv4_v6` on the raw address. -/
def ipv4V6 (a : RawAddr 4) : RawAddr 16 :=
  ⟨v4Pattern ++ a.1, by rw [List.length_append, a.2]; rfl⟩

/-- `vsf_sysutil_sockaddr_ipv6_v4` on the raw address. -/
def ipv6V4 (a : RawAddr 16) : Option (RawAddr 4) :=
  if a.1.take 12 = v4Pattern then some ⟨a.1.drop 12, by rw [List.length_drop, a.2]⟩ else none

def setIpv4addr (raw : RawAddr 4) : Sockaddr → Sockaddr
  | inet _ p => inet raw p
  | inet6 _ p => inet6 (ipv4V6 raw) p

/-- `vsf_sysutil_sockaddr_set_ipv6addr`; an IPv4 structure is a bug. -/
def setIpv6addr (raw : RawAddr 16) : Sockaddr → Option Sockaddr
  | inet .. => none
  | inet6 _ p => some (inet6 raw p)

def addrEqual : Sockaddr → Sockaddr → Bool
  | inet a _, inet b _ => a = b
  | inet6 a _, inet6 b _ => a = b
  | inet a _, inet6 b _ => ipv6V4 b = some a
  | inet6 a _, inet b _ => ipv6V4 a = some b

/-- The 16 bytes an address stands for, an IPv4 one in its v4-mapped form. -/
def ip : Sockaddr → RawAddr 16
  | inet a _ => ipv4V6 a
  | inet6 a _ => a

@[simp] theorem ip_setPort (port : UInt16) (s : Sockaddr) : (s.setPort port).ip = s.ip := by
  cases s <;> rfl

@[simp] theorem getPort_setPort (port : UInt16) (s : Sockaddr) : (s.setPort port).getPort = port := by
  cases s <;> rfl

theorem ipv4V6_injective {a b : RawAddr 4} (h : ipv4V6 a = ipv4V6 b) : a = b := by
  have h' : v4Pattern ++ a.1 = v4Pattern ++ b.1 := congrArg Subtype.val h
  exact Subtype.ext (List.append_cancel_left h')

theorem ipv6V4_eq_some {a : RawAddr 16} {b : RawAddr 4} : ipv6V4 a = some b ↔ a = ipv4V6 b := by
  unfold ipv6V4
  constructor
  · intro h
    split at h
    · rename_i ht
      obtain rfl := Option.some.inj h
      apply Subtype.ext
      show a.1 = v4Pattern ++ a.1.drop 12
      rw [← ht, List.take_append_drop]
    · cases h
  · rintro rfl
    rw [if_pos (by simp [ipv4V6, v4Pattern])]
    exact congrArg some (Subtype.ext (by simp [ipv4V6, v4Pattern]))

/-- **The comparison decides whether two addresses are one host.** -/
theorem addrEqual_iff (a b : Sockaddr) : addrEqual a b = true ↔ a.ip = b.ip := by
  cases a <;> cases b <;> simp only [addrEqual, ip, decide_eq_true_eq, ipv6V4_eq_some]
  · exact ⟨congrArg ipv4V6, ipv4V6_injective⟩
  · exact eq_comm

end Sockaddr

def isPortReserved (port : UInt16) : Bool := port.toNat < ipportReserved

/-! ### Parsing -/

/-- `vsf_sysutil_parse_uchar_string_sep`: `items` numbers of a byte each. -/
def parseUcharStringSep (sep : UInt8) : ℕ → Bytes → Option Bytes
  | 0, _ => some []
  | items + 1, s =>
    let (field, rhs) := strSplitChar s sep
    -- too few or too many separators
    if (0 < items ∧ rhs = []) ∨ (items = 0 ∧ rhs ≠ []) then none
    else
      let n := strAtoi field
      if n < 0 ∨ 255 < n then none
      else (parseUcharStringSep sep items rhs).map (UInt8.ofNat n.toNat :: ·)

theorem length_parseUcharStringSep (sep : UInt8) : ∀ (items : ℕ) {s raw : Bytes},
    parseUcharStringSep sep items s = some raw → raw.length = items
  | 0, _, _, h => by
    obtain rfl := Option.some.inj h
    rfl
  | items + 1, s, raw, h => by
    rw [parseUcharStringSep] at h
    simp only at h
    split at h
    · cases h
    · split at h
      · cases h
      · obtain ⟨r, hr, rfl⟩ := Option.map_eq_some_iff.mp h
        rw [List.length_cons, length_parseUcharStringSep sep items hr]

/-- `vsf_sysutil_parse_ipv4`. -/
def parseIpv4 (s : Bytes) : Option (RawAddr 4) :=
  match h : parseUcharStringSep chDot 4 s with
  | some raw => some ⟨raw, length_parseUcharStringSep chDot 4 h⟩
  | none => none

/-- The value of a hexadecimal digit. -/
def hexDigit (b : UInt8) : Option ℕ :=
  let ch := (toupper b).toNat
  if 48 ≤ ch ∧ ch ≤ 57 then some (ch - 48)
  else if 65 ≤ ch ∧ ch ≤ 70 then some (ch - 65 + 10)
  else none

def ipv6ParseHex (s : Bytes) : Option Bytes :=
  let val := s.foldl (fun acc b => do
    let v ← acc
    let ch ← hexDigit b
    if 0xFFFF < v * 16 + ch then none else some (v * 16 + ch)) (some 0)
  val.map fun v => [UInt8.ofNat (v / 256), UInt8.ofNat (v % 256)]

/-- The loop of `ipv4_parse_dotquad`: the value being read, those behind it,
and whether a digit was seen. -/
def ipv4ParseDotquadLoop : Bytes → ℕ → List ℕ → Bool → Option (List ℕ)
  | [], val, vals, seenChar => if vals.length ≠ 3 ∨ !seenChar then none else some (vals ++ [val])
  | b :: s, val, vals, seenChar =>
    if b = chDot then
      if !seenChar ∨ vals.length = 3 then none else ipv4ParseDotquadLoop s 0 (vals ++ [val]) false
    else if isdigit b then
      let val := val * 10 + (b.toNat - 48)
      if 255 < val then none else ipv4ParseDotquadLoop s val vals true
    else none

def ipv4ParseDotquad (s : Bytes) : Option Bytes :=
  (ipv4ParseDotquadLoop s 0 [] false).map fun vals => vals.map UInt8.ofNat

/-- `ipv6_parse_main`: the groups between colons, for at most as many rounds as
there are bytes. -/
def ipv6ParseMain : ℕ → Bytes → Option Bytes
  | 0, _ => some []
  | n + 1, lhs =>
    if lhs = [] then some []
    else
      let (field, rhs) := strSplitChar lhs chColon
      if field = [] then none
      else do
        let out ← if (strLocateChar field chDot).isSome then ipv4ParseDotquad field
          else ipv6ParseHex field
        let rest ← ipv6ParseMain n rhs
        some (out ++ rest)

/-- `vsf_sysutil_parse_ipv6` and the 16 bytes its callers copy from what it
returns; `stale` stands behind the NUL of a buffer that is shorter. -/
def parseIpv6 (stale : RawAddr 16) (s : Bytes) : Option (RawAddr 16) := do
  let (lhs, rhs) := strSplitText s (text "::")
  let lhs ← ipv6ParseMain (lhs.length + 1) lhs
  let rhs ← ipv6ParseMain (rhs.length + 1) rhs
  if 16 < lhs.length + rhs.length then none
  else
    let ret := if 0 < rhs.length then
        lhs ++ List.replicate (16 - (lhs.length + rhs.length)) chNul ++ rhs
      else lhs
    some ⟨(ret ++ [chNul] ++ stale.1).take 16, by simp [stale.2]⟩

/-- A host of the private network 10. -/
def host10 (d : UInt8) (port : UInt16) : Sockaddr := .inet ⟨[10, 0, 0, d], rfl⟩ port

end CosFtp
