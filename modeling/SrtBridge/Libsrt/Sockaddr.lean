import SrtBridge.General.Bytes
import SrtBridge.Protocol.Config

/-! Addresses as libsrt takes and gives them: the C layout of `sockaddr_in` and
`sockaddr_in6` inside a `sockaddr_storage`. -/

namespace SrtBridge

open General

def afInet : UInt8 := 2

/-- What the layout of an address depends on. -/
structure Host where
  endian : Endian
  /-- The family is one byte, after one for the length. -/
  lenByte : Bool
  afInet6 : UInt8
  afInet6_ne : afInet6 ≠ afInet

def Host.putFamily (h : Host) (len family : UInt8) (m : Memory) : Memory :=
  if h.lenByte then m.put 0 [len, family] else m.put 0 (h.endian.store 2 family.toNat)

def Host.family (h : Host) (m : Memory) : ℕ :=
  if h.lenByte then Endian.big.load (m.get 1 1) else h.endian.load (m.get 0 2)

/-- The bytes of an address, in the order they are written in. -/
def octets {w : ℕ} (n : ℕ) (ip : BitVec w) : List UInt8 := Endian.big.store n ip.toNat

def ofOctets (w : ℕ) (bs : List UInt8) : BitVec w := .ofNat w (Endian.big.load bs)

def socketAddrToSockaddr (h : Host) : SocketAddr → Memory
  | .v4 ip port =>
    let sin : Memory := h.putFamily 16 afInet fun _ => 0
    let sin := sin.put 2 (h.endian.store 2 (h.endian.toBe 2 port.toNat))
    sin.put 4 (h.endian.store 4 (h.endian.load (octets 4 ip)))
  | .v6 ip port flowinfo scopeId =>
    let sin6 : Memory := h.putFamily 28 h.afInet6 fun _ => 0
    let sin6 := sin6.put 2 (h.endian.store 2 (h.endian.toBe 2 port.toNat))
    let sin6 := sin6.put 8 (octets 16 ip)
    let sin6 := sin6.put 4 (h.endian.store 4 flowinfo.toNat)
    sin6.put 24 (h.endian.store 4 scopeId.toNat)

/-- `None` for a null pointer, and for a family that is neither of the two. -/
def sockaddrToSocketAddr (h : Host) : Option Memory → Option SocketAddr
  | none => none
  | some sa =>
    if h.family sa = afInet.toNat then
      let ip := h.endian.fromBe 4 (h.endian.load (sa.get 4 4))
      let port := h.endian.fromBe 2 (h.endian.load (sa.get 2 2))
      some (.v4 (.ofNat 32 ip) (.ofNat 16 port))
    else if h.family sa = h.afInet6.toNat then
      let port := h.endian.fromBe 2 (h.endian.load (sa.get 2 2))
      some (.v6 (ofOctets 128 (sa.get 8 16)) (.ofNat 16 port) 0 0)
    else none

def sockaddrStorageToSocketAddr (h : Host) (sa : Memory) : Option SocketAddr :=
  sockaddrToSocketAddr h (some sa)

/-- `get_peer_addr`; the storage libsrt fills, unless the call fails. -/
def getPeerAddr (h : Host) (getpeername : Option Memory) : Option SocketAddr :=
  getpeername.bind (sockaddrStorageToSocketAddr h)

def getLocalAddr (h : Host) (getsockname : Option Memory) : Option SocketAddr :=
  getsockname.bind (sockaddrStorageToSocketAddr h)

def memberPeerAddr (h : Host) (peeraddr : Memory) : Option SocketAddr :=
  sockaddrStorageToSocketAddr h peeraddr

def SocketAddr.unscoped : SocketAddr → Bool
  | .v4 _ _ => true
  | .v6 _ _ flowinfo scopeId => flowinfo = 0 && scopeId = 0

def SocketAddr.withoutScope : SocketAddr → SocketAddr
  | .v4 ip port => .v4 ip port
  | .v6 ip port _ _ => .v6 ip port 0 0

section Fields

variable {h : Host} {m : Memory} {len family : UInt8}

theorem family_putFamily : h.family (h.putFamily len family m) = family.toNat := by
  unfold Host.family Host.putFamily
  split_ifs
  · have hget : (m.put 0 [len, family]).get 1 1 = [family] := rfl
    rw [hget]
    simp [Endian.load, ofLowBytes]
  · have hlt := family.toNat_lt
    rw [Memory.get_put_self (store_length ..), load_store]
    omega

/-- The family is not overwritten from the third byte on. -/
theorem family_put {offset : ℕ} {bs : List UInt8} (ho : 2 ≤ offset) :
    h.family (m.put offset bs) = h.family m := by
  unfold Host.family
  rw [Memory.get_put_of_disjoint (.inl (by omega)), Memory.get_put_of_disjoint (.inl (by omega))]

theorem ofNat_store {w n x : ℕ} {e : Endian} (hx : x < 256 ^ n) :
    BitVec.ofNat w (e.load (e.store n x)) = BitVec.ofNat w x := by
  rw [load_store, Nat.mod_eq_of_lt hx]

theorem ofOctets_octets {w n : ℕ} (hn : 256 ^ n = 2 ^ w) (ip : BitVec w) :
    ofOctets w (octets n ip) = ip := by
  unfold ofOctets octets
  rw [ofNat_store (by rw [hn]; exact ip.isLt), BitVec.ofNat_toNat, BitVec.setWidth_eq]

/-- A port is read back from the bytes it is stored in. -/
theorem port_load (port : BitVec 16) {bs : List UInt8}
    (hbs : bs = h.endian.store 2 (h.endian.toBe 2 port.toNat)) :
    BitVec.ofNat 16 (h.endian.fromBe 2 (h.endian.load bs)) = port := by
  have hlen : bs.length = 2 := by rw [hbs, store_length]
  rw [fromBe_load _ _ hlen, hbs, store_toBe]
  exact ofOctets_octets (n := 2) rfl port

end Fields

/-- An address is read back without its flow label and scope. -/
theorem sockaddrStorageToSocketAddr_socketAddrToSockaddr (h : Host) (a : SocketAddr) :
    sockaddrStorageToSocketAddr h (socketAddrToSockaddr h a) = some a.withoutScope := by
  have hne : h.afInet6.toNat ≠ afInet.toNat := fun he => h.afInet6_ne (UInt8.toNat_inj.mp he)
  unfold sockaddrStorageToSocketAddr sockaddrToSocketAddr
  cases a with
  | v4 ip port =>
    set m := socketAddrToSockaddr h (.v4 ip port) with hm
    have hfamily : h.family m = afInet.toNat := by
      rw [hm, socketAddrToSockaddr, family_put (by omega), family_put (by omega), family_putFamily]
    have hport : m.get 2 2 = h.endian.store 2 (h.endian.toBe 2 port.toNat) := by
      rw [hm, socketAddrToSockaddr, Memory.get_put_of_disjoint (.inl (by omega)),
        Memory.get_put_self (store_length ..)]
    have hlen : (octets 4 ip).length = 4 := store_length ..
    have hip : m.get 4 4 = octets 4 ip := by
      have hkept := store_load h.endian (octets 4 ip)
      rw [hlen] at hkept
      rw [hm, socketAddrToSockaddr, Memory.get_put_self (store_length ..), hkept]
    dsimp only
    rw [if_pos hfamily, port_load port hport, hip, fromBe_load _ _ hlen]
    congr 2
    exact ofOctets_octets (n := 4) rfl ip
  | v6 ip port flowinfo scopeId =>
    set m := socketAddrToSockaddr h (.v6 ip port flowinfo scopeId) with hm
    have hfamily : h.family m = h.afInet6.toNat := by
      rw [hm, socketAddrToSockaddr, family_put (by omega), family_put (by omega), family_put (by omega),
        family_put (by omega), family_putFamily]
    have hport : m.get 2 2 = h.endian.store 2 (h.endian.toBe 2 port.toNat) := by
      rw [hm, socketAddrToSockaddr, Memory.get_put_of_disjoint (.inl (by omega)),
        Memory.get_put_of_disjoint (.inl (by omega)), Memory.get_put_of_disjoint (.inl (by omega)),
        Memory.get_put_self (store_length ..)]
    have hip : m.get 8 16 = octets 16 ip := by
      have hlen : (octets 16 ip).length = 16 := store_length ..
      rw [hm, socketAddrToSockaddr, Memory.get_put_of_disjoint (.inl (by omega)),
        Memory.get_put_of_disjoint (.inr (by simp)), Memory.get_put_self hlen]
    dsimp only
    rw [if_neg (by rw [hfamily]; exact hne), if_pos hfamily, port_load port hport, hip,
      ofOctets_octets (n := 16) rfl ip]
    rfl

/-- On every host an address comes back, from the storage it was put into and from the calls that
return that storage, exactly when it has neither a flow label nor a scope. -/
theorem address_returned_iff (h : Host) (a : SocketAddr) :
    let sa := socketAddrToSockaddr h a
    (sockaddrStorageToSocketAddr h sa = some a ∧ getLocalAddr h (some sa) = some a ∧
        getPeerAddr h (some sa) = some a ∧ memberPeerAddr h sa = some a) ↔ a.unscoped = true := by
  have hread := sockaddrStorageToSocketAddr_socketAddrToSockaddr h a
  have hsame : a.withoutScope = a ↔ a.unscoped = true := by
    cases a with
    | v4 ip port => simp [SocketAddr.withoutScope, SocketAddr.unscoped]
    | v6 ip port flowinfo scopeId =>
      simp only [SocketAddr.withoutScope, SocketAddr.unscoped, SocketAddr.v6.injEq, true_and, Bool.and_eq_true,
        decide_eq_true_eq]
      exact and_congr eq_comm eq_comm
  simp only [getLocalAddr, getPeerAddr, memberPeerAddr, Option.bind_some, hread, Option.some_inj, and_self]
  exact hsame

/-- A link-local address comes back without its scope. -/
theorem address_loses_scope :
    let h : Host := ⟨.little, false, 10, by decide⟩
    let a : SocketAddr := .v6 0xfe800000000000000000000000000001 9000 0 3
    sockaddrStorageToSocketAddr h (socketAddrToSockaddr h a) =
        some (.v6 0xfe800000000000000000000000000001 9000 0 0) ∧
      sockaddrStorageToSocketAddr h (socketAddrToSockaddr h a) ≠ some a := by
  decide +kernel

end SrtBridge
