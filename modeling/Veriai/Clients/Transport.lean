import Veriai.Clients.Wasm
import Veriai.Core.Base64
import Veriai.Service.Transparent

/-!
# The text of a receipt

Both decoders try hexadecimal text first and Base64 then. A receipt is a CBOR
array of fewer than 24 items, possibly of indefinite length: its first byte puts
a letter beyond `f` at the beginning of its Base64 text, so the first attempt
cannot mistake one for the other.
-/

namespace Veriai

/-- The buffer begins with the head of a CBOR array, as every receipt does. -/
def BeginsWithArray (bytes : Bytes) : Prop := ∃ head, bytes.head? = some head ∧
  0x80 ≤ head.toNat ∧ head.toNat ≤ 0x9F

/-- A decoder that is the standard one up to the texts of its errors. -/
def IsBase64 (decode : String → Except String Bytes) : Prop :=
  ∀ text, (decode text).toOption = Base64.decode text

/-- The upper six bits of such a byte are the number of a letter from `g` to `n`. -/
theorem hexNibble_symbol : ∀ n < 8,
    String.utf8EncodeChar (Base64.symbol (32 + n)) = [(Base64.symbol (32 + n)).toUInt8] ∧
      hexNibble (Char.ofUInt8 (Base64.symbol (32 + n)).toUInt8) = none := by decide

/-- The Base64 text of a receipt is not hexadecimal. -/
theorem hexDecode_base64 {bytes : Bytes} (h : BeginsWithArray bytes) :
    ∃ e, hexDecode (Base64.encode bytes) = .error e := by
  obtain ⟨head, hhead, hle, hlt⟩ := h
  obtain ⟨rest, rfl⟩ := List.head?_eq_some_iff.mp hhead
  have hsextet : head.toNat / 4 = 32 + (head.toNat / 4 - 32) := by omega
  have hfirst : (Base64.encodeChars (head :: rest)).head? =
      some (Base64.symbol (32 + (head.toNat / 4 - 32))) := by
    rw [Base64.head?_encodeChars, ← hsextet]
  obtain ⟨symbols, hsymbols⟩ := List.head?_eq_some_iff.mp hfirst
  obtain ⟨hbyte, hnibble⟩ := hexNibble_symbol (head.toNat / 4 - 32) (by omega)
  rw [Base64.encode, hsymbols]
  exact hexDecode_of_head hbyte hnibble

theorem IsBase64.decode_encode {decode : String → Except String Bytes} (h : IsBase64 decode)
    (bytes : Bytes) : decode (Base64.encode bytes) = .ok bytes := by
  have hround := h (Base64.encode bytes)
  rw [Base64.decode_encode] at hround
  cases hdecode : decode (Base64.encode bytes) with
  | ok b =>
    rw [hdecode] at hround
    rw [Option.some.inj hround]
  | error e =>
    rw [hdecode] at hround
    cases hround

/-- The texts a receipt may be sent as. -/
def receiptTexts (bytes : Bytes) : List String :=
  [hexEncode bytes, hexEncodeUpper bytes, Base64.encode bytes]

section Decoders

variable {Text : Type} {formats : Service.Formats Text} {codec : PemCodec} {bytes : Bytes}

/-- Hexadecimal text is decoded as such, whatever it decodes to. -/
theorem decodeReceipt_hex {text : String} (h : hexDecode text = .ok bytes) :
    Service.decodeReceipt formats text = .ok bytes ∧ Wasm.decodeReceipt codec text = .ok bytes := by
  simp [Service.decodeReceipt, Wasm.decodeReceipt, h]

/-- What is not hexadecimal is decoded as Base64. -/
theorem decodeReceipt_base64 {text : String} (hhex : ∃ e, hexDecode text = .error e)
    (hformats : formats.base64Decode text = .ok bytes)
    (hcodec : codec.base64Decode text = .ok bytes) :
    Service.decodeReceipt formats text = .ok bytes ∧ Wasm.decodeReceipt codec text = .ok bytes := by
  obtain ⟨e, he⟩ := hhex
  simp [Service.decodeReceipt, Wasm.decodeReceipt, he, hformats, hcodec, Except.mapError]

/-- Service and browser decode every text of a receipt to the receipt, and its Base64 text is
hexadecimal for nothing. -/
theorem decodeReceipt_receiptTexts (hformats : IsBase64 formats.base64Decode)
    (hcodec : IsBase64 codec.base64Decode) (h : BeginsWithArray bytes) :
    (∀ text ∈ receiptTexts bytes, Service.decodeReceipt formats text = .ok bytes ∧
      Wasm.decodeReceipt codec text = .ok bytes) ∧
        ∀ other, hexDecode (Base64.encode bytes) ≠ .ok other := by
  have hhex := hexDecode_base64 h
  constructor
  · simp only [receiptTexts, List.forall_mem_cons, List.not_mem_nil, false_imp_iff, implies_true,
      and_true]
    refine ⟨decodeReceipt_hex (hexDecode_hexEncode bytes),
      decodeReceipt_hex (hexDecode_hexEncodeUpper bytes), ?_⟩
    exact decodeReceipt_base64 hhex (hformats.decode_encode bytes) (hcodec.decode_encode bytes)
  · intro other hother
    obtain ⟨e, he⟩ := hhex
    rw [he] at hother
    cases hother

end Decoders

/-- The standard decoder. -/
def standardBase64 (text : String) : Except String Bytes :=
  match Base64.decode text with
  | some bytes => .ok bytes
  | none => .error "invalid"

theorem isBase64_standardBase64 : IsBase64 standardBase64 := by
  intro text
  rw [standardBase64]
  split
  · next bytes h => rw [h]; rfl
  · next h => rw [h]; rfl

/-- An array head and three bytes: their hexadecimal text has letters, their Base64 text padding. -/
def arrayBytes : Bytes := [0x84, 0xab, 0xcd, 0xef]

/-- The three texts of these bytes are decoded to them. -/
theorem decodeReceipt_receiptTexts_array :
    hexEncode arrayBytes = "84abcdef" ∧ Base64.encode arrayBytes = "hKvN7w==" ∧
      (∀ text ∈ receiptTexts arrayBytes,
        Service.decodeReceipt { Service.Transparent.formats with base64Decode := standardBase64 }
            text = .ok arrayBytes ∧
          Wasm.decodeReceipt ⟨standardBase64, fun _ => Transparent.fill 32 0⟩ text =
            .ok arrayBytes) ∧
        ∀ other, hexDecode (Base64.encode arrayBytes) ≠ .ok other :=
  ⟨by decide +kernel, by decide +kernel,
    decodeReceipt_receiptTexts isBase64_standardBase64 isBase64_standardBase64
      ⟨0x84, rfl, by decide, by decide⟩⟩

end Veriai
