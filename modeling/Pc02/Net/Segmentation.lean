import Pc02.Net.Frame

/-!
# Segmentation of the stream

The loop takes what one `recv` returns for a whole header and what the next returns for a whole body.
A segmentation that cuts only between these gives every frame to `eg_tcp_main_proc`; one that cuts
inside them loses frames, so that on no stream with a frame in it are all segmentations alike.
-/

namespace Pc02.Net

def Obs.call? : Obs → Option (UInt8 × List UInt8 × Int)
  | .call cmd data length => some (cmd, data, length)
  | _ => none

def calls (chunks : List (List UInt8)) : List (UInt8 × List UInt8 × Int) :=
  (netThreadEntry (chunks.map .data)).filterMap Obs.call?

def stream (frames : List Frame) : List UInt8 := frames.flatMap Frame.bytes

def Splits (chunks : List (List UInt8)) (bytes : List UInt8) : Prop :=
  (∀ chunk ∈ chunks, chunk ≠ []) ∧ chunks.flatten = bytes

def Whole (chunks parts : List (List UInt8)) : Prop :=
  ∃ groups : List (List (List UInt8)), (∀ group ∈ groups, group ≠ []) ∧ groups.flatten = parts ∧
    chunks = groups.map List.flatten

def parts (frames : List Frame) : List (List UInt8) := frames.flatMap fun f => [f.header, f.body]

/-- The calls that the frames stand for: each payload is put at the front of `array_data`. -/
def dispatched : List UInt8 → List Frame → List (UInt8 × List UInt8 × Int)
  | _, [] => []
  | arrayData, f :: frames =>
      let arrayData := f.data ++ arrayData.drop f.len
      (f.command, arrayData, f.len) :: dispatched arrayData frames

theorem recv_part {chunks ps : List (List UInt8)} {p : List UInt8} (h : Whole chunks (p :: ps))
    (hne : ∀ q ∈ ps, q ≠ []) :
    ∃ chunks', recv p.length (chunks.map .data) = some (.data p, chunks'.map .data) ∧ Whole chunks' ps := by
  obtain ⟨groups, hgroups, hflat, rfl⟩ := h
  cases groups with
  | nil => cases hflat
  | cons group groups =>
      have hgroups' : ∀ g ∈ groups, g ≠ [] := fun g hg => hgroups g (List.mem_cons_of_mem _ hg)
      cases group with
      | nil => exact absurd rfl (hgroups [] (by simp))
      | cons q group =>
          simp only [List.flatten_cons, List.cons_append, List.cons.injEq] at hflat
          obtain ⟨rfl, rfl⟩ := hflat
          cases group with
          | nil =>
              -- the chunk is this part
              refine ⟨groups.map List.flatten, ?_, groups, hgroups', by simp, rfl⟩
              simp [recv]
          | cons q' group =>
              -- the rest of the chunk stays for the next `recv`
              refine ⟨((q' :: group) :: groups).map List.flatten, ?_, (q' :: group) :: groups, ?_, by simp, rfl⟩
              · have hpos : 0 < q'.length := List.length_pos_iff.mpr (hne q' (by simp))
                have hlong : ¬ (q ++ (q' ++ group.flatten)).length ≤ q.length := by
                  simp only [List.length_append]
                  omega
                simp only [List.map_cons, List.flatten_cons, recv, if_neg hlong, List.take_left, List.drop_left]
              · intro g hg
                rcases List.mem_cons.mp hg with rfl | hg
                · simp
                · exact hgroups' g hg

theorem parts_ne_nil (frames : List Frame) : ∀ p ∈ parts frames, p ≠ [] := by
  intro p hp
  simp only [parts, List.mem_flatMap, List.mem_cons, List.not_mem_nil, or_false] at hp
  obtain ⟨f, -, rfl | rfl⟩ := hp
  · exact List.ne_nil_of_length_pos (by rw [f.header_length, headerSize]; omega)
  · exact List.ne_nil_of_length_pos (by rw [f.body_length]; omega)

theorem strToHexAccesses_call (nLen : Int) : (strToHexAccesses nLen).filterMap Obs.call? = [] := by
  rw [List.filterMap_eq_nil_iff]
  intro o ho
  simp only [strToHexAccesses, List.mem_flatMap, List.mem_cons, List.not_mem_nil, or_false] at ho
  obtain ⟨i, -, rfl | rfl | rfl⟩ := ho <;> rfl

/-- Whole parts give the calls that the frames stand for. -/
theorem run_whole {chunks : List (List UInt8)} {frames : List Frame} {arrayData : List UInt8}
    (hsize : arrayData.length = arrayDataSize) (h : Whole chunks (parts frames)) :
    (run arrayData (chunks.map .data)).filterMap Obs.call? = dispatched arrayData frames := by
  induction frames generalizing chunks arrayData with
  | nil =>
      obtain ⟨groups, hgroups, hflat, rfl⟩ := h
      have hnil : groups = [] := by
        cases groups with
        | nil => rfl
        | cons group groups =>
            have hempty : group = [] := by simpa using (List.append_eq_nil_iff.mp hflat).1
            exact absurd hempty (hgroups group (by simp))
      subst hnil
      rfl
  | cons f frames ih =>
      have hne := parts_ne_nil frames
      have hparts : parts (f :: frames) = f.header :: f.body :: parts frames := rfl
      rw [hparts] at h
      obtain ⟨chunks₁, hhead, h⟩ := recv_part h (by simpa using ⟨parts_ne_nil [f] _ (by simp [parts]), hne⟩)
      obtain ⟨chunks₂, hbody, h⟩ := recv_part h hne
      have hlen : (headerLen f.header * 2 + 8).toNat = f.body.length := by
        rw [f.headerLen_header, f.body_length]
        omega
      rw [f.header_length] at hhead
      rw [← hlen] at hbody
      have hsize' : (f.data ++ arrayData.drop f.len).length = arrayDataSize := by
        have hle : f.len ≤ arrayDataSize := f.length_le
        simp only [List.length_append, f.data_length, List.length_drop, hsize]
        omega
      rw [run_eq, turn_frame hhead f.headerOk_header hbody]
      simp only [f.headerLen_header, f.strToHex_body hsize, f.command_eq, List.filterMap_append,
        strToHexAccesses_call, ih hsize' h, dispatched]
      rfl

theorem calls_whole {chunks : List (List UInt8)} {frames : List Frame} (h : Whole chunks (parts frames)) :
    calls chunks = dispatched (List.replicate arrayDataSize 0) frames :=
  run_whole (by simp) h

theorem stream_eq (frames : List Frame) : (parts frames).flatten = stream frames := by
  induction frames with
  | nil => rfl
  | cons f frames ih =>
      have hparts : parts (f :: frames) = f.header :: f.body :: parts frames := rfl
      simp [hparts, ih, stream, Frame.bytes]

theorem whole_stream {frames : List Frame} (h : frames ≠ []) : Whole [stream frames] (parts frames) := by
  refine ⟨[parts frames], ?_, by simp, by simp [stream_eq]⟩
  cases frames with
  | nil => exact absurd rfl h
  | cons f frames => simp [parts]

theorem stream_ne_nil {frames : List Frame} (h : frames ≠ []) : stream frames ≠ [] := by
  cases frames with
  | nil => exact absurd rfl h
  | cons f frames =>
      apply List.ne_nil_of_length_pos
      simp only [stream, List.flatMap_cons, List.length_append, Frame.bytes, f.body_length]
      omega

/-- No single byte is a header, so a stream that comes byte by byte is dropped. -/
theorem run_bytewise (arrayData bytes : List UInt8) :
    run arrayData ((bytes.map fun b => [b]).map .data) = [] := by
  induction bytes with
  | nil => rfl
  | cons b bytes ih =>
      have hrecv : recv headerSize (((b :: bytes).map fun b => [b]).map .data) =
          some (.data [b], (bytes.map fun b => [b]).map .data) := rfl
      rw [run_eq, turn_drop hrecv rfl]
      exact ih

theorem splits_bytewise (bytes : List UInt8) : Splits (bytes.map fun b => [b]) bytes := by
  constructor
  · intro chunk hchunk
    obtain ⟨b, -, rfl⟩ := List.mem_map.mp hchunk
    simp
  · induction bytes with
    | nil => rfl
    | cons b bytes ih => simp [ih]

theorem splits_nil {chunks : List (List UInt8)} (h : Splits chunks []) : chunks = [] := by
  cases chunks with
  | nil => rfl
  | cons chunk chunks => exact absurd (List.append_eq_nil_iff.mp h.2).1 (h.1 chunk (by simp))

/-- The calls are the same for all segmentations of a stream only if there is no frame in it. They are
the same for all that cut between headers and bodies, and then they are what the frames stand for. -/
theorem dispatch_by_segmentation (frames : List Frame) :
    ((∀ chunks₁ chunks₂, Splits chunks₁ (stream frames) → Splits chunks₂ (stream frames) →
      calls chunks₁ = calls chunks₂) ↔ frames = []) ∧
    (∀ chunks, Whole chunks (parts frames) →
      calls chunks = dispatched (List.replicate arrayDataSize 0) frames) := by
  refine ⟨⟨?_, ?_⟩, fun chunks h => calls_whole h⟩
  · intro h
    by_contra hne
    have hsplits : Splits [stream frames] (stream frames) := ⟨by simp [stream_ne_nil hne], by simp⟩
    have heq := h _ _ hsplits (splits_bytewise _)
    rw [calls_whole (whole_stream hne)] at heq
    cases frames with
    | nil => exact hne rfl
    | cons f frames =>
        have hnil : calls ((stream (f :: frames)).map fun b => [b]) = [] := by
          rw [calls, netThreadEntry, run_bytewise]
          rfl
        rw [hnil] at heq
        cases heq
  · rintro rfl chunks₁ chunks₂ h₁ h₂
    rw [splits_nil h₁, splits_nil h₂]

def shortFrame : Frame where
  cmd := [0x30, 0x31]
  length := [0x30, 0x30, 0x30, 0x31]
  payload := [0x30, 0x41]
  trailer := List.replicate 8 0x30
  cmd_length := by decide
  length_length := by decide
  length_hex := by simp [IsHex]
  length_le := by decide
  payload_length := by decide
  payload_hex := by simp [IsHex]
  trailer_length := by decide

theorem dispatch_by_segmentation_one_chunk :
    Whole [shortFrame.bytes] (parts [shortFrame]) ∧
      calls [shortFrame.bytes] = dispatched (List.replicate arrayDataSize 0) [shortFrame] := by
  have hwhole : Whole [shortFrame.bytes] (parts [shortFrame]) :=
    ⟨[[shortFrame.header, shortFrame.body]], by decide, by decide, by decide⟩
  exact ⟨hwhole, (dispatch_by_segmentation [shortFrame]).2 _ hwhole⟩

/-- One frame in two chunks is handed on; if its header comes in two chunks, it is not. -/
theorem split_header_lost :
    Splits [shortFrame.header, shortFrame.body] (stream [shortFrame]) ∧
    Splits [shortFrame.header.take 8, shortFrame.header.drop 8, shortFrame.body] (stream [shortFrame]) ∧
    calls [shortFrame.header, shortFrame.body] = [(1, 0x0a :: List.replicate 255 0, 1)] ∧
    calls [shortFrame.header.take 8, shortFrame.header.drop 8, shortFrame.body] = [] := by
  refine ⟨⟨?_, ?_⟩, ⟨?_, ?_⟩, ?_, ?_⟩ <;> decide +kernel

end Pc02.Net
