import NgpEncodeServer.Encode.Frames

/-!
# The frames that a pipeline gives up

A frame that has been pushed can be lost in four ways before it is taken from the map: its
conversion throws, its index is already in the map, the map stays full, or the cleanup of the map
comes upon it.  `countP_frames_add_discarded` makes the bound of `countP_frames_le` an equation: a
step keeps every frame that it does not discard.
-/

namespace Ngp

namespace Pipe

/-- The frames that a step destroys before they have been taken from the map. -/
def discarded (p : Pipe) : PipeAction → List RenderedFrame
  | .convert swsScene swsDepth =>
    match p.process with
    | .converting _ frame =>
      match frame.convertFrame swsScene swsDepth with
      | .ok _ => []
      | .error _ => [frame]
    | _ => []
  | .insert =>
    match p.process with
    -- `std::map::insert` declines a key that is present
    | .inserting frameIndex frame => if p.frameMap.map.contains frameIndex then [frame] else []
    | _ => []
  | .insertTimeout => p.process.frames
  | .getDelete => (FrameMap.dropped p.frameMap.map p.frameIndex).map Prod.snd
  | _ => []

variable {p p' : Pipe} {a : PipeAction} {q : RenderedFrame → Bool}

/-- A push adds its frame to those in the pipeline. -/
theorem countP_frames_push {frame : RenderedFrame} (h : Trans p (.push frame) p') :
    p'.frames.countP q = p.frames.countP q + [frame].countP q := by
  cases h with
  | push hroom hqueue =>
    simp only [frames, stored, hqueue, List.countP_append]
    omega

/-- The step of `process_frame_thread` that converts a frame keeps it, or throws and discards it. -/
private theorem countP_frames_convert (hq : ConversionInvariant q) {swsScene swsDepth : Bool}
    (h : step p (.convert swsScene swsDepth) = some p') :
    p'.frames.countP q + (p.discarded (.convert swsScene swsDepth)).countP q =
      p.frames.countP q := by
  simp only [step] at h
  split at h
  · rename_i i frame hat
    cases hconvert : frame.convertFrame swsScene swsDepth with
    | ok frame' =>
      rw [hconvert] at h
      obtain rfl := RenderedFrame.convertFrame_eq_ok hconvert
      obtain rfl := Option.some.inj h
      have hconv := hq frame
      simp only [discarded, frames, stored, hat, hconvert, ProcessPoint.frames,
        List.countP_append, List.countP_cons, List.countP_nil, hconv]
      omega
    | error e =>
      rw [hconvert] at h
      obtain rfl := Option.some.inj h
      simp only [discarded, frames, stored, hat, hconvert, ProcessPoint.frames,
        List.countP_append, List.countP_cons, List.countP_nil]
      omega
  · cases h

/-- A step of a thread of the pipeline keeps every frame that it does not discard. -/
theorem countP_frames_add_discarded (hq : ConversionInvariant q) (h : step p a = some p') :
    p'.frames.countP q + (p.discarded a).countP q = p.frames.countP q + a.pushed.countP q := by
  by_cases hconvert : ∃ swsScene swsDepth, a = .convert swsScene swsDepth
  · obtain ⟨swsScene, swsDepth, rfl⟩ := hconvert
    exact countP_frames_convert hq h
  cases trans_of_step h with
  | convert | convertThrows => exact absurd ⟨_, _, rfl⟩ hconvert
  | push hroom hqueue =>
    simp only [discarded, frames, stored, hqueue, PipeAction.pushed, List.countP_append,
      List.countP_nil]
    omega
  | pop hat hqueue =>
    simp only [discarded, frames, stored, hat, hqueue, ProcessPoint.frames, PipeAction.pushed,
      List.countP_append, List.countP_cons, List.countP_nil]
    omega
  | @insert i frame m hat hroom hm =>
    by_cases hmem : i ∈ p.frameMap.map.keys
    · have hcontains := AssocMap.contains_iff.mpr hmem
      rw [AssocMap.insert_of_mem frame hmem] at hm
      simp only [discarded, frames, stored, hat, hm, hcontains, if_true, ProcessPoint.frames,
        PipeAction.pushed, List.countP_append, List.countP_cons, List.countP_nil]
      omega
    · have hcontains := AssocMap.not_contains_iff.mpr hmem
      have hentries := AssocMap.entries_insert_of_notMem frame hmem
      simp only [discarded, frames, stored, hat, hcontains, Bool.false_eq_true, if_false,
        AssocMap.values, hm, hentries, List.map_cons, ProcessPoint.frames, PipeAction.pushed,
        List.countP_append, List.countP_cons, List.countP_nil]
      omega
  | insertTimeout hat _ =>
    simp only [discarded, frames, stored, hat, ProcessPoint.frames, PipeAction.pushed,
      List.countP_append, List.countP_cons, List.countP_nil]
    omega
  | @getDelete frame m hat hmem hm =>
    have hperm := ((FrameMap.perm_entries_getDelete hmem).map Prod.snd).countP_eq q
    simp only [List.map_cons, List.map_append, List.countP_cons, List.countP_append] at hperm
    simp only [discarded, frames, stored, AssocMap.values, hm, PipeAction.pushed,
      List.countP_append, List.countP_cons, List.countP_nil]
    omega
  | popTimeout | getTimeout | sendScene | sendDepth | advance => rfl

end Pipe

end Ngp
