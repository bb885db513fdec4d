import GameRelay.Relaying
/-!
# Codec — datagrams as packets

A `Packet` is what a datagram says: kind, connection, sequence, address and payload, with the ranges of its fixed-width
fields.  `Packet.encode` is the sender's direction and `Packet.parse` the receiver's, by the checks of `datagram`.
-/
namespace Relay

namespace Udp

structure Packet where
  kind : UInt8
  cid : Nat
  sequence : Nat
  address : Bytes
  payload : Bytes
  cid_lt : cid < 2 ^ 64
  sequence_lt : sequence < 2 ^ 64
  length_address : address.length = 16
  deriving DecidableEq

/-- Integers of eight bytes are below `2 ^ 64`. -/
theorem bigEndian_lt {b : Bytes} (h : b.length = 8) : bigEndian b < 2 ^ 64 := by
  match b, h with
  | [a₀, a₁, a₂, a₃, a₄, a₅, a₆, a₇], _ =>
    simp only [bigEndian, List.foldl_cons, List.foldl_nil]
    have h₀ := a₀.toNat_lt
    have h₁ := a₁.toNat_lt
    have h₂ := a₂.toNat_lt
    have h₃ := a₃.toNat_lt
    have h₄ := a₄.toNat_lt
    have h₅ := a₅.toNat_lt
    have h₆ := a₆.toNat_lt
    have h₇ := a₇.toNat_lt
    omega

theorem ofNat_eq {a : UInt8} {n : Nat} (h : n % 256 = a.toNat) : UInt8.ofNat n = a :=
  UInt8.toNat_inj.1 (by rw [UInt8.toNat_ofNat']; exact h)

theorem u64Bytes_bigEndian {b : Bytes} (h : b.length = 8) : u64Bytes (bigEndian b) = b := by
  match b, h with
  | [a₀, a₁, a₂, a₃, a₄, a₅, a₆, a₇], _ =>
    have h₀ := a₀.toNat_lt
    have h₁ := a₁.toNat_lt
    have h₂ := a₂.toNat_lt
    have h₃ := a₃.toNat_lt
    have h₄ := a₄.toNat_lt
    have h₅ := a₅.toNat_lt
    have h₆ := a₆.toNat_lt
    have h₇ := a₇.toNat_lt
    simp only [bigEndian, u64Bytes, u32Bytes, List.foldl_cons, List.foldl_nil, List.cons_append, List.nil_append]
    rw [ofNat_eq (a := a₀) (by omega), ofNat_eq (a := a₁) (by omega), ofNat_eq (a := a₂) (by omega),
      ofNat_eq (a := a₃) (by omega), ofNat_eq (a := a₄) (by omega), ofNat_eq (a := a₅) (by omega),
      ofNat_eq (a := a₆) (by omega), ofNat_eq (a := a₇) (by omega)]

/-! The parts of a datagram fit together. -/

/-- The header's fields stand one after the other. -/
theorem header_eq {b : Bytes} (h : 69 ≤ b.length) (hm : b.take 4 = magic) :
    b = magic ++ kindOf b :: ((b.drop 5).take 8 ++ (b.drop 13).take 8 ++ targetOf b ++ payloadOf b) ++ tagOf b := by
  have hkind : b.drop 4 = kindOf b :: b.drop 5 := by
    unfold kindOf
    rw [List.getElem?_eq_getElem (by omega), Option.getD_some]
    exact List.drop_eq_getElem_cons (by omega)
  have hcut : ∀ i j, (b.drop i).take j ++ b.drop (i + j) = b.drop i := fun i j => by
    rw [← List.drop_drop, List.take_append_drop]
  have hpayload : payloadOf b ++ tagOf b = b.drop 37 := by
    have := hcut 37 (b.length - 69)
    rwa [show 37 + (b.length - 69) = b.length - 32 by omega] at this
  have hbody : (b.drop 5).take 8 ++ ((b.drop 13).take 8 ++ (targetOf b ++ b.drop 37)) = b.drop 5 := by
    rw [show targetOf b ++ b.drop 37 = b.drop 21 from hcut 21 16, hcut 13 8, hcut 5 8]
  calc b = b.take 4 ++ b.drop 4 := (List.take_append_drop 4 b).symm
    _ = magic ++ kindOf b :: b.drop 5 := by rw [hm, hkind]
    _ = magic ++ kindOf b :: ((b.drop 5).take 8 ++ ((b.drop 13).take 8 ++ (targetOf b ++ b.drop 37))) := by rw [hbody]
    _ = _ := by
      rw [← hpayload]
      simp only [List.append_assoc, List.cons_append]

theorem length_payloadOf {b : Bytes} (h : 69 ≤ b.length) : b.length = 69 + (payloadOf b).length := by
  unfold payloadOf
  rw [List.length_take, List.length_drop]
  omega

namespace Packet

/-- What a datagram says. -/
def read (b : Bytes) (h : 69 ≤ b.length) : Packet where
  kind := kindOf b
  cid := connectionOf b
  sequence := sequenceOf b
  address := targetOf b
  payload := payloadOf b
  cid_lt := bigEndian_lt (by rw [List.length_take, List.length_drop]; omega)
  sequence_lt := bigEndian_lt (by rw [List.length_take, List.length_drop]; omega)
  length_address := by
    unfold targetOf
    rw [List.length_take, List.length_drop]
    omega

/-- The packets a client may send: the handshake carries 16 bytes to no address, game traffic at least one byte. -/
structure Allowed (config : Config) (p : Packet) : Prop where
  kind : p.kind = 0 ∨ p.kind = 1 ∨ p.kind = 2
  handshake : p.kind ≠ 2 → p.payload.length = 16 ∧ p.address = nilAddress
  game : p.kind = 2 → p.payload ≠ []
  size : 69 + p.payload.length ≤ config.udpMaxDatagramBytes

variable [Extern]

def encode (key : Bytes) (p : Packet) : Bytes := Udp.encode key p.kind p.cid p.sequence p.address p.payload

/-- The receiver's checks of size, magic, kind, payload, address and tag. -/
def parse (config : Config) (key b : Bytes) : Option Packet :=
  if h : 69 ≤ b.length then if shaped config b && authentic key b then some (read b h) else none else none

/-- **A datagram of this magic and tag is made from the packet it reads as.** -/
theorem encode_read {key b : Bytes} (h : 69 ≤ b.length) (hm : b.take 4 = magic) (ht : authentic key b = true) :
    (read b h).encode key = b := by
  have heq := header_eq h hm
  have hbody : magic ++ kindOf b :: ((b.drop 5).take 8 ++ (b.drop 13).take 8 ++ targetOf b ++ payloadOf b) = bodyOf b := by
    refine (List.append_left_inj (tagOf b)).1 (heq.symm.trans ?_)
    exact (List.take_append_drop _ b).symm
  have hcid : u64Bytes (connectionOf b) = (b.drop 5).take 8 :=
    u64Bytes_bigEndian (by rw [List.length_take, List.length_drop]; omega)
  have hsequence : u64Bytes (sequenceOf b) = (b.drop 13).take 8 :=
    u64Bytes_bigEndian (by rw [List.length_take, List.length_drop]; omega)
  show Udp.encode key (kindOf b) (connectionOf b) (sequenceOf b) (targetOf b) (payloadOf b) = b
  unfold Udp.encode
  dsimp only
  rw [hcid, hsequence, hbody, of_decide_eq_true ht]
  exact List.take_append_drop _ b

section Codec

variable (hmac : ∀ key body, (Extern.hmacSha256 key body).length = 32)

include hmac

theorem length_encode (key : Bytes) (p : Packet) : (p.encode key).length = 69 + p.payload.length := by
  rw [Nat.add_comm]
  exact Server.length_encode hmac p.length_address

/-- The payload stands between the header and the tag. -/
theorem payloadOf_encode (key : Bytes) (p : Packet) : payloadOf (p.encode key) = p.payload := by
  unfold payloadOf
  rw [length_encode hmac, Nat.add_sub_cancel_left]
  unfold encode Udp.encode
  dsimp only
  generalize Extern.hmacSha256 key _ = tag
  have hbody : magic ++ p.kind :: (u64Bytes p.cid ++ u64Bytes p.sequence ++ p.address ++ p.payload) ++ tag =
      (magic ++ p.kind :: (u64Bytes p.cid ++ u64Bytes p.sequence ++ p.address)) ++ (p.payload ++ tag) := by
    simp only [List.append_assoc, List.cons_append]
  rw [hbody, List.drop_left' (by simp [magic, u64Bytes, u32Bytes, p.length_address]), List.take_left]

/-- **Reading a datagram gives the packet it was made from.** -/
theorem read_encode (key : Bytes) (p : Packet) (h : 69 ≤ (p.encode key).length) : read (p.encode key) h = p := by
  have hcid : connectionOf (p.encode key) = p.cid := Server.connectionOf_encode _ _ _ _ _ p.cid_lt
  have hsequence : sequenceOf (p.encode key) = p.sequence := Server.sequenceOf_encode _ _ _ _ _ p.sequence_lt
  have haddress : targetOf (p.encode key) = p.address := Server.targetOf_encode _ _ _ _ _ p.length_address
  have hpayload := payloadOf_encode hmac key p
  unfold read
  simp only [hcid, hsequence, haddress, hpayload]
  rfl

/-- Datagrams that are equal are made from the same packet, under whatever keys. -/
theorem encode_inj {key key' : Bytes} {p q : Packet} (h : p.encode key = q.encode key') : p = q := by
  have hp : 69 ≤ (p.encode key).length := by rw [length_encode hmac]; omega
  have hq : 69 ≤ (q.encode key').length := by rw [length_encode hmac]; omega
  calc p = read (p.encode key) hp := (read_encode hmac key p hp).symm
    _ = read (q.encode key') hq := by simp only [h]
    _ = q := read_encode hmac key' q hq

/-- The size, magic, kind, payload and address checks pass for just the packets a client may send. -/
theorem shaped_encode (config : Config) (key : Bytes) (p : Packet) : shaped config (p.encode key) = true ↔ p.Allowed config := by
  have hkind : kindOf (p.encode key) = p.kind := rfl
  have hmagic : (p.encode key).take 4 = magic := rfl
  have haddress : targetOf (p.encode key) = p.address := Server.targetOf_encode _ _ _ _ _ p.length_address
  have hle : p.kind ≤ 2 ↔ p.kind = 0 ∨ p.kind = 1 ∨ p.kind = 2 := by
    rw [UInt8.le_iff_toNat_le, ← UInt8.toNat_inj, ← UInt8.toNat_inj, ← UInt8.toNat_inj]
    change p.kind.toNat ≤ 2 ↔ p.kind.toNat = 0 ∨ p.kind.toNat = 1 ∨ p.kind.toNat = 2
    omega
  unfold shaped
  rw [hkind, hmagic, haddress, payloadOf_encode hmac, length_encode hmac]
  by_cases h2 : p.kind = 2
  · simp only [h2, if_true, Bool.and_eq_true, decide_eq_true_eq, Bool.or_eq_true, Bool.not_eq_true', List.isEmpty_eq_false_iff]
    refine ⟨fun h => ⟨.inr (.inr h2), fun hne => absurd h2 hne, fun _ => h.1.2, h.1.1.1.1.2⟩, fun h => ?_⟩
    exact ⟨⟨⟨⟨⟨by omega, h.size⟩, trivial⟩, by decide⟩, h.game h2⟩, .inl trivial⟩
  · simp only [h2, if_false, Bool.and_eq_true, decide_eq_true_eq, Bool.or_eq_true, false_or]
    refine ⟨fun h => ⟨hle.1 h.1.1.2, fun _ => ⟨h.1.2, h.2⟩, fun he => absurd he h2, h.1.1.1.1.2⟩, fun h => ?_⟩
    exact ⟨⟨⟨⟨⟨by omega, h.size⟩, trivial⟩, hle.2 h.kind⟩, (h.handshake h2).1⟩, (h.handshake h2).2⟩

/-- **What the receiver parses is what a client may send.** -/
theorem parse_iff (config : Config) (key b : Bytes) (p : Packet) :
    parse config key b = some p ↔ p.Allowed config ∧ p.encode key = b := by
  unfold parse
  constructor
  · intro h
    split at h
    · rename_i h69
      split at h
      · rename_i hchecks
        cases h
        obtain ⟨hshaped, hauth⟩ := (Bool.and_eq_true _ _).mp hchecks
        have hmagic : b.take 4 = magic := by
          have hs := hshaped
          unfold shaped at hs
          simp only [Bool.and_eq_true, decide_eq_true_eq] at hs
          exact hs.1.1.1.2
        have hb := encode_read h69 hmagic hauth
        refine ⟨(shaped_encode hmac config key (read b h69)).1 ?_, hb⟩
        rw [hb]
        exact hshaped
      · cases h
    · cases h
  · rintro ⟨hp, rfl⟩
    have h69 : 69 ≤ (p.encode key).length := by rw [length_encode hmac]; omega
    have hauth : authentic key (p.encode key) = true := Server.authentic_encode hmac _ _ _ _ _ _
    rw [dif_pos h69, (shaped_encode hmac config key p).2 hp, hauth, read_encode hmac key p]
    rfl

end Codec

end Packet

/-- A datagram made of a packet, within the size allowed. -/
def Made [Extern] (config : Config) (b : Bytes) : Prop :=
  ∃ key kind cid sequence address payload, address.length = 16 ∧ b = Udp.encode key kind cid sequence address payload ∧
    b.length = 69 + payload.length ∧ b.length ≤ config.udpMaxDatagramBytes

end Udp

open Udp

namespace Server

variable [Extern]

/-- **The server acts only on what it parses**, under the key of the session that bears the datagram. -/
theorem datagram_unparsed {s : Server} {b : Bytes}
    (h : ∀ c p r u, s.bearer (Udp.connectionOf b) = some (c, p, r, u) → Packet.parse s.config u.secret b = none)
    (source : String) (t : Nat) (challenge : Bytes) : s.datagram b source t challenge = .ok ⟨s, [], []⟩ := by
  unfold datagram
  split
  · rfl
  rename_i hshaped
  replace hshaped := eq_true_of_ne_false hshaped
  dsimp only
  split
  · rfl
  rename_i c p r u hb
  split
  · rfl
  rename_i hauth
  replace hauth := eq_true_of_ne_false hauth
  have hnone := h c p r u hb
  have h69 : 69 ≤ b.length := by
    have hs := hshaped
    unfold shaped at hs
    simp only [Bool.and_eq_true, decide_eq_true_eq] at hs
    exact hs.1.1.1.1.1
  unfold Packet.parse at hnone
  rw [dif_pos h69, hshaped, hauth] at hnone
  cases hnone

section Sending

variable {config : Config} (hmac : ∀ key body, (Extern.hmacSha256 key body).length = 32)

include hmac

theorem packet_made {u u' : Udp.Session} {cid : Nat} {kind : UInt8} {sender payload packet : Bytes}
    (h : u.packet cid kind sender payload = some (u', packet)) (hs : sender.length = 16)
    (hl : payload.length + 69 ≤ config.udpMaxDatagramBytes) : Made config packet := by
  obtain ⟨-, -, rfl⟩ := packet_next h
  have hlen : (Udp.encode u.secret kind cid (u.outgoing + 1) sender payload).length = payload.length + 69 :=
    Server.length_encode hmac hs
  exact ⟨_, _, _, _, _, payload, hs, rfl, by rw [hlen, Nat.add_comm], hlen ▸ hl⟩

theorem answer_made (s : Server) (cid : Nat) (c : Connection) (u : Udp.Session) (source : String) (t : Nat) (kind : UInt8)
    {payload : Bytes} (hl : payload.length + 69 ≤ config.udpMaxDatagramBytes) :
    ∀ x ∈ (s.answer cid c u source t kind payload).2, Made config x.2 := by
  unfold answer
  dsimp only
  split
  · rename_i u' packet hp
    intro x hx
    rw [List.mem_singleton.1 hx]
    split at hp
    · exact packet_made hmac hp rfl hl
    · cases hp
  · exact fun _ hx => nomatch hx

theorem deliver_made (t : Nat) {sender payload : Bytes} (hs : sender.length = 16)
    (hl : payload.length + 69 ≤ config.udpMaxDatagramBytes) (x : Server × List (String × Bytes)) (recipient : Nat × Nat)
    (hx : ∀ y ∈ x.2, Made config y.2) : ∀ y ∈ (deliver t sender payload x recipient).2, Made config y.2 := by
  unfold deliver
  split
  · exact hx
  split
  · exact hx
  split
  · exact hx
  dsimp only
  split
  · rename_i u' packet hp
    intro y hy
    rcases List.mem_append.1 hy with hy | hy
    · exact hx y hy
    · rw [List.mem_singleton.1 hy]
      split at hp
      · exact packet_made hmac hp hs hl
      · cases hp
  · exact hx

theorem deliveries_made (t : Nat) {sender payload : Bytes} (hs : sender.length = 16)
    (hl : payload.length + 69 ≤ config.udpMaxDatagramBytes) : ∀ (rs : List (Nat × Nat)) (x : Server × List (String × Bytes)),
    (∀ y ∈ x.2, Made config y.2) → ∀ y ∈ (rs.foldl (deliver t sender payload) x).2, Made config y.2
  | [], _, h => h
  | r :: rs, x, h => deliveries_made t hs hl rs _ (deliver_made hmac t hs hl x r h)

/-- **Every datagram the server sends is a packet within the size allowed.** -/
theorem datagram_made (s : Server) (b : Bytes) (source : String) (t : Nat) {challenge : Bytes} (hch : challenge.length = 16) :
    (s.datagram b source t challenge).All (fun r => ∀ x ∈ r.packets, Made s.config x.2) := by
  have none : ∀ x ∈ ([] : List (String × Bytes)), Made s.config x.2 := fun _ hx => nomatch hx
  unfold datagram
  refine Out.all_ite (fun _ => none) (fun hshape => ?_)
  replace hshape := eq_true_of_ne_false hshape
  dsimp only
  split
  · exact none
  refine Out.all_ite (fun _ => none) (fun _ => ?_)
  split
  · exact none
  have hsize : 69 ≤ b.length ∧ b.length ≤ s.config.udpMaxDatagramBytes := by
    have hs := hshape
    unfold Udp.shaped at hs
    simp only [Bool.and_eq_true, decide_eq_true_eq] at hs
    exact hs.1.1.1.1
  -- what is relayed or echoed is no longer than what came
  have hpayload : (payloadOf b).length + 69 ≤ s.config.udpMaxDatagramBytes := by
    have := length_payloadOf hsize.1
    omega
  refine all_mapOut (P := fun r : Reply => ∀ x ∈ r.packets, Made s.config x.2) ?_ (fun _ h => h)
  refine Out.all_ite (fun _ => none) (fun _ => Out.all_ite (fun hk => ?_) (fun _ => ?_))
  · have h85 := (shaped_length hshape (by rw [hk]; decide)).1
    exact answer_made hmac _ _ _ _ source t 3 (by rw [hch]; omega)
  refine Out.all_ite (fun _ => ?_) (fun _ => ?_)
  · unfold confirm
    split
    · exact answer_made hmac _ _ _ _ source t 4 hpayload
    · exact none
  · unfold relayPacket
    refine Out.all_ite (fun _ => Out.all_unwrap (fun sender hs => ?_)) (fun _ => none)
    exact deliveries_made hmac t (length_parseUuid hs) hpayload _ (_, []) none

end Sending

end Server

namespace Udp

variable [Extern]

/-- **The datagram codec is exact.**  An encoding reads as its packet and its tag holds; the receiver parses every packet
that a client may send; every byte string it parses is the encoding of the packet it is parsed into, and already size, magic and tag
make it the encoding of its fields; equal encodings are of one packet.  Every datagram the server sends is an encoding,
69 bytes longer than its payload, and within the size its settings allow. -/
theorem codec_is_exact (hmac : ∀ key body, (Extern.hmacSha256 key body).length = 32) :
    (∀ key (p : Packet), authentic key (p.encode key) = true ∧ ∀ h, Packet.read (p.encode key) h = p) ∧
    (∀ config key p, p.Allowed config → Packet.parse config key (p.encode key) = some p) ∧
    (∀ config key b p, Packet.parse config key b = some p → p.Allowed config ∧ p.encode key = b) ∧
    (∀ key b, 69 ≤ b.length → b.take 4 = magic → authentic key b = true →
      b = Udp.encode key (kindOf b) (connectionOf b) (sequenceOf b) (targetOf b) (payloadOf b)) ∧
    (∀ key key' (p q : Packet), p.encode key = q.encode key' → p = q) ∧
    ∀ (s : Server) b source t challenge reply, challenge.length = 16 → s.datagram b source t challenge = .ok reply →
      ∀ x ∈ reply.packets, Made s.config x.2 :=
  ⟨fun key p => ⟨Server.authentic_encode hmac _ _ _ _ _ _, Packet.read_encode hmac key p⟩,
    fun config key p h => (Packet.parse_iff hmac config key _ p).2 ⟨h, rfl⟩,
    fun config key b p => (Packet.parse_iff hmac config key b p).1,
    fun _ _ h hm ht => (Packet.encode_read h hm ht).symm,
    fun _ _ _ _ h => Packet.encode_inj hmac h,
    fun s b source t _ _ hch hr => Out.all_of_state (Server.datagram_made hmac s b source t hch) (hr ▸ rfl)⟩

omit [Extern] in
/-- A relayed byte of connection 7. -/
theorem codec_is_exact_relayed :
    letI := Trace.tagging []
    ∃ p : Packet, p.kind = 2 ∧ p.cid = 7 ∧ p.payload = [9] ∧
      Packet.parse Config.default [1] (p.encode [1]) = some p := by
  let _ := Trace.tagging []
  let p : Packet := ⟨2, 7, 1, nilAddress, [9], by decide, by decide, rfl⟩
  have hp : p.Allowed Config.default := ⟨by decide, by decide, by decide, by decide⟩
  exact ⟨p, rfl, rfl, rfl, (codec_is_exact (fun _ _ => List.length_replicate)).2.1 _ _ p hp⟩

end Udp
end Relay
