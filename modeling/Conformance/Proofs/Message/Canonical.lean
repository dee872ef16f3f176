import Conformance.Block
import Conformance.Proofs.Bytes.Delimited

namespace Conformance

namespace Bytes

/-- The number with a magnitude, most significant byte first. -/
def magnitude (bytes : Bytes) : Nat := bytes.foldl (fun n b => 256 * n + b.toNat) 0

theorem magnitude_ofNat (n : Nat) : magnitude (ofNat n) = n := by
  fun_induction ofNat n with
  | case1 n h => simp [magnitude, UInt8.toNat_ofNat', Nat.mod_eq_of_lt h]
  | case2 n h ih =>
    rw [magnitude, List.foldl_append]
    simp only [List.foldl_cons, List.foldl_nil, UInt8.toNat_ofNat']
    change 256 * magnitude (ofNat (n / 256)) + n % 256 = n
    rw [ih]
    omega

theorem ofNat_inj {m n : Nat} (h : ofNat m = ofNat n) : m = n := by
  rw [← magnitude_ofNat m, h, magnitude_ofNat]

theorem bigEndian_inj {width m n : Nat} (hm : m < Nat.pow 256 width) (hn : n < Nat.pow 256 width)
    (h : bigEndian width m = bigEndian width n) : m = n :=
  littleEndian_inj hm hn (List.reverse_inj.mp h)

end Bytes

theorem Address.bytes_inj {a b : Address} (h : a.bytes = b.bytes) : a = b := by
  cases a <;> cases b <;> simp only [bytes, List.cons.injEq, true_and] at h
  case id.id m n =>
    rw [UInt64.toNat_inj.mp (@Bytes.bigEndian_inj 8 _ _ m.toNat_lt n.toNat_lt h)]
  case secp256k1.secp256k1 p q => rw [Payload.ext_bytes h]
  case actor.actor p q => rw [Payload.ext_bytes h]
  case bls.bls p q => rw [h]
  all_goals exact absurd h.1 (by decide)

theorem SigType.code_inj {a b : SigType} (h : a.code = b.code) : a = b := by
  revert h
  cases a <;> cases b <;> decide

namespace Message

/-- Every field is short enough for its length to be written. -/
def Short (m : Message) : Prop := ∀ p ∈ m.parts, p.length < Bytes.maxField

theorem parts_inj {m n : Message} (h : m.parts = n.parts) : m = n := by
  simp only [parts, List.cons.injEq, and_true] at h
  obtain ⟨hrecipient, hsender, hnonce, hvalue, hmethod, hparams, hcap, hpremium, hlimit⟩ := h
  cases m; cases n
  simp only [Message.mk.injEq]
  exact ⟨Address.bytes_inj hrecipient, Address.bytes_inj hsender, Bytes.ofUInt64_inj hnonce,
    Bytes.ofNat_inj hvalue, Bytes.ofUInt64_inj hmethod, hparams, Bytes.ofNat_inj hcap,
    Bytes.ofNat_inj hpremium, Bytes.ofInt64_inj hlimit⟩

theorem canonical_inj {m n : Message} (hm : m.Short) (hn : n.Short)
    (h : m.canonical = n.canonical) : m = n :=
  parts_inj (Bytes.fields_inj hm hn h)

theorem cid_inj {m n : Message} (hm : m.Short) (hn : n.Short)
    (h : ¬ Bytes.Collide m.canonical n.canonical) : m.cid = n.cid ↔ m = n := by
  constructor
  · exact fun heq => canonical_inj hm hn ((Cid.ofBytes_inj h).mp heq)
  · rintro rfl
    rfl

end Message

namespace SignedMessage

def parts (m : SignedMessage) : List Bytes :=
  m.message.parts ++ [[m.signature.sigType.code], m.signature.bytes]

def Short (m : SignedMessage) : Prop := ∀ p ∈ m.parts, p.length < Bytes.maxField

theorem parts_inj {m n : SignedMessage} (h : m.parts = n.parts) : m = n := by
  obtain ⟨hmessage, hsignature⟩ := List.append_inj h (by simp [Message.parts])
  simp only [List.cons.injEq, and_true] at hsignature
  obtain ⟨message, sigType, bytes⟩ := m
  obtain ⟨message', sigType', bytes'⟩ := n
  obtain rfl := Message.parts_inj hmessage
  obtain rfl := SigType.code_inj hsignature.1
  rw [show bytes = bytes' from hsignature.2]

theorem canonical_inj {m n : SignedMessage} (hm : m.Short) (hn : n.Short)
    (h : m.canonical = n.canonical) : m = n :=
  parts_inj (Bytes.fields_inj hm hn h)

/-- A signature adds two fields. -/
theorem canonical_ne {m : SignedMessage} {n : Message} (hm : m.Short) (hn : n.Short) :
    m.canonical ≠ n.canonical := by
  intro h
  have hlen := congrArg List.length (Bytes.fields_inj hm hn h)
  simp [parts, Message.parts] at hlen

theorem chainLength_eq (m : SignedMessage) :
    m.chainLength = m.message.chainLength + 17 + m.signature.bytes.length := by
  simp only [chainLength, canonical, Message.chainLength, Message.canonical, Bytes.length_fields,
    List.map_append, List.sum_append, List.map_cons, List.map_nil, List.sum_cons, List.sum_nil,
    List.length_singleton]
  omega

end SignedMessage

namespace Message

/-- Canonical bytes determine what they are the bytes of, and identifiers determine the messages of
blocks, from whichever list of a block they come. -/
theorem canonical_determines :
    (∀ m n : Message, m.Short → n.Short → (m.canonical = n.canonical ↔ m = n)) ∧
    (∀ m n : SignedMessage, m.Short → n.Short → (m.canonical = n.canonical ↔ m = n)) ∧
    (∀ (m : SignedMessage) (n : Message), m.Short → n.Short → m.canonical ≠ n.canonical) ∧
    (∀ m : SignedMessage, m.chainLength = m.message.chainLength + 17 + m.signature.bytes.length) ∧
    (∀ b c : Block, ∀ d ∈ b.entries, ∀ e ∈ c.entries, d.1.Short → e.1.Short →
      ¬ Bytes.Collide d.1.canonical e.1.canonical → (d.1.cid = e.1.cid ↔ d.1 = e.1)) := by
  refine ⟨fun m n hm hn => ⟨canonical_inj hm hn, congrArg canonical⟩,
    fun m n hm hn => ⟨SignedMessage.canonical_inj hm hn, congrArg SignedMessage.canonical⟩,
    fun m n => SignedMessage.canonical_ne, SignedMessage.chainLength_eq, ?_⟩
  intro _ _ d _ e _ hd he hdistinct
  exact cid_inj hd he hdistinct

/-- A transfer of fifty. -/
def gift : Message where
  recipient := .bls [0]
  sender := .id 100
  nonce := 0
  value := 50
  method := send
  params := []
  gasFeeCap := 256
  gasPremium := 0
  gasLimit := -1

/-- The transfer once unsigned and once signed, after another one that is signed. -/
def gifts : Block where
  bls := [gift]
  secp := [⟨{ gift with nonce := 1 }, ⟨.bls, []⟩⟩, ⟨gift, ⟨.secp256k1, [9, 9]⟩⟩]
  miner := .id 1000
  tickets := 1

theorem canonical_determines_gifts :
    gift.canonical ≠ { gift with nonce := 1 }.canonical ∧
    SignedMessage.canonical ⟨gift, ⟨.bls, []⟩⟩ ≠
      SignedMessage.canonical ⟨gift, ⟨.secp256k1, []⟩⟩ ∧
    SignedMessage.canonical ⟨gift, ⟨.bls, []⟩⟩ ≠ gift.canonical ∧
    gifts.entries.map Prod.snd = [111, 128, 130] ∧
    gift.cid ≠ { gift with nonce := 1 }.cid := by
  have hgift : gift.Short := by unfold Short; decide +kernel
  have hnext : { gift with nonce := 1 }.Short := by unfold Short; decide +kernel
  have hbls : SignedMessage.Short ⟨gift, ⟨.bls, []⟩⟩ := by
    unfold SignedMessage.Short; decide +kernel
  have hsecp : SignedMessage.Short ⟨gift, ⟨.secp256k1, []⟩⟩ := by
    unfold SignedMessage.Short; decide +kernel
  have hdistinct : ¬ Bytes.Collide gift.canonical { gift with nonce := 1 }.canonical := by
    rintro ⟨_, h⟩
    exact absurd h (by decide +kernel)
  obtain ⟨hunsigned, hsigned, hapart, hlength, hpool⟩ := canonical_determines
  refine ⟨fun h => absurd ((hunsigned _ _ hgift hnext).mp h) (by decide),
    fun h => absurd ((hsigned _ _ hbls hsecp).mp h) (by decide), hapart _ _ hbls hgift, ?_,
    fun h => absurd ((hpool gifts gifts (gift, 111) ?_ ({ gift with nonce := 1 }, 128) ?_ hgift hnext
      hdistinct).mp h) (by decide)⟩
  · simp only [gifts, Block.entries, List.map_cons, List.map_nil, List.cons_append, List.nil_append,
      hlength]
    decide +kernel
  · decide +kernel
  · decide +kernel

end Message
end Conformance
