import Rtpkit.RtcpAccepted
import Rtpkit.RtcpBodyRoundTrip
import Rtpkit.RtcpTotal

namespace Rtpkit

open Outcome Chunk

/-- The content is chunks one after the other, and a tail. -/
def Spells (content : Bytes) (parts : List SdesPart) (tail : Bytes) : Prop :=
  content = (parts.map SdesPart.bytes).flatten ++ tail

section Grammar

variable {content tail tail' : Bytes} {parts parts' : List SdesPart}

theorem parseSdesChunks_of_spells (h : Spells content parts tail) :
    parseSdesChunks content parts.length 0 = .ok (parts.map SdesPart.chunk) :=
  parseSdesChunks_of_parts ⟨[], tail, h, rfl⟩

theorem exists_spells_of_parseSdesChunks {sc : Nat} {chunks : List SdesChunk}
    (h : parseSdesChunks content sc 0 = .ok chunks) :
    ∃ parts tail, Spells content parts tail ∧ parts.length = sc ∧
      chunks = parts.map SdesPart.chunk := by
  obtain ⟨parts, hlen, hchunks, before, tail, hcontent, hbefore⟩ :=
    parseSdesChunks_spec h (Nat.zero_le _)
  obtain rfl := List.length_eq_zero_iff.mp hbefore
  exact ⟨parts, tail, hcontent, hlen, hchunks.symm⟩

/-- The chunks fix where each part ends, and so what stands in the place of its alignment. -/
theorem Spells.unique_of_chunks (h : Spells content parts tail) (h' : Spells content parts' tail')
    (hchunks : parts.map SdesPart.chunk = parts'.map SdesPart.chunk) :
    parts = parts' ∧ tail = tail' := by
  induction parts generalizing content parts' with
  | nil =>
    obtain rfl := List.map_eq_nil_iff.mp hchunks.symm
    exact ⟨rfl, h.symm.trans h'⟩
  | cons part parts ih =>
    cases parts' with
    | nil => cases hchunks
    | cons part' parts' =>
      obtain ⟨hchunk, hmore⟩ := List.cons.inj hchunks
      have hsame := h.symm.trans h'
      simp only [List.map_cons, List.flatten_cons, List.append_assoc] at hsame
      have hwidth : part.bytes.length = part'.bytes.length := by
        rw [part.length_bytes, part'.length_bytes, hchunk]
      obtain ⟨hbytes, hrest⟩ := List.append_inj hsame hwidth
      obtain ⟨rfl, rfl⟩ := ih (rfl : Spells _ parts tail) hrest hmore
      refine ⟨?_, rfl⟩
      congr 1
      cases part with
      | mk chunk padding buildable aligned =>
        cases part' with
        | mk chunk' padding' buildable' aligned' =>
          obtain rfl : chunk = chunk' := hchunk
          obtain rfl : padding = padding' := List.append_cancel_left hbytes
          rfl

theorem Spells.unique (h : Spells content parts tail) (h' : Spells content parts' tail')
    (hlen : parts.length = parts'.length) : parts = parts' ∧ tail = tail' := by
  refine h.unique_of_chunks h' ?_
  have hparse := parseSdesChunks_of_spells h
  have hparse' := parseSdesChunks_of_spells h'
  rw [hlen, hparse'] at hparse
  exact (Except.ok.inj hparse).symm

end Grammar

/-- The parser of the body accepts exactly what spells as many chunks as are announced, in one
way, whatever follows them, and calls everything else malformed. -/
theorem parseSdes_iff_spells (content : Bytes) (sc : Nat) (padding : Int) :
    (∀ pkt, parseSdes content sc padding = .ok pkt ↔
      ∃ parts tail, Spells content parts tail ∧ parts.length = sc ∧
        pkt = { chunks := parts.map SdesPart.chunk, paddingSize := padding }) ∧
    (∀ parts tail parts' tail', Spells content parts tail → Spells content parts' tail' →
      parts.length = sc → parts'.length = sc → parts = parts' ∧ tail = tail') ∧
    (∀ parts tail tail', Spells content parts tail → parts.length = sc →
      parseSdes ((parts.map SdesPart.bytes).flatten ++ tail') sc padding =
        parseSdes content sc padding) ∧
    ∀ e, parseSdes content sc padding = .error e → IsRtcpMalformed e := by
  have hspelled : ∀ (content : Bytes) parts tail, Spells content parts tail → parts.length = sc →
      parseSdes content sc padding =
        .ok { chunks := parts.map SdesPart.chunk, paddingSize := padding } := by
    rintro content parts tail h rfl
    rw [parseSdes, parseSdesChunks_of_spells h]
    rfl
  refine ⟨fun pkt => ⟨fun h => ?_, ?_⟩, ?_, ?_, ?_⟩
  · obtain ⟨chunks, hchunks, h⟩ := bind_eq_ok.mp h
    obtain ⟨parts, tail, hspells, hlen, rfl⟩ := exists_spells_of_parseSdesChunks hchunks
    exact ⟨parts, tail, hspells, hlen, (pure_eq_ok.mp h).symm⟩
  · rintro ⟨parts, tail, hspells, hlen, rfl⟩
    exact hspelled content parts tail hspells hlen
  · intro parts tail parts' tail' h h' hlen hlen'
    exact h.unique h' (hlen.trans hlen'.symm)
  · intro parts tail tail' h hlen
    rw [hspelled content parts tail h hlen, hspelled _ parts tail' rfl hlen]
  · exact failsOnly_bind (parseSdesChunks_failsOnly content sc 0) fun _ _ => failsOnly_ok _

end Rtpkit
