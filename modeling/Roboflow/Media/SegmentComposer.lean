import Roboflow.Library.Positions

/-! Concatenation of video segments, `video/composer.rs`: the packets of the files are written one
file after the other to one stream, with times moved behind those written before. A source is
what `read_packet` gives of it; FFmpeg takes every packet it is handed. Times are `i64`. -/
namespace Roboflow.Media.Composer
open Library

def i64Min : Int := -2 ^ 63

def i64Max : Int := 2 ^ 63 - 1

/-- `i64::saturating_add`. -/
def saturatingAdd (a b : Int) : Int := max i64Min (min (a + b) i64Max)

/-- `AV_NOPTS_VALUE`. -/
def avNoptsValue : Int := i64Min

structure Packet where
  streamIndex : Nat
  pts : Int
  dts : Int
  deriving DecidableEq

structure Source where
  streams : Nat
  packets : List Packet

/-- The running times of `compose`. -/
structure Progress where
  ptsOffset : Int
  dtsOffset : Int
  lastPts : Int
  lastDts : Int

/-- The output stream made for each stream of the first source. -/
def streamMapping (first : Source) : List (Option Nat) := (List.range first.streams).map some

def shiftPts (progress : Progress) (packet : Packet) : Progress × Packet :=
  if packet.pts ≠ avNoptsValue then
    let pts := saturatingAdd packet.pts progress.ptsOffset
    ({ progress with lastPts := pts }, { packet with pts := pts })
  else (progress, packet)

def shiftDts (progress : Progress) (packet : Packet) : Progress × Packet :=
  if packet.dts ≠ avNoptsValue then
    let dts := saturatingAdd packet.dts progress.dtsOffset
    ({ progress with lastDts := dts }, { packet with dts := dts })
  else (progress, packet)

/-- One turn of the packet loop: a packet of a stream that is not mapped is passed over. -/
def rewritePacket (mapping : List (Option Nat)) (progress : Progress) (packet : Packet) :
    Progress × List Packet :=
  match mapping[packet.streamIndex]? with
  | some (some index) =>
    let (progress, packet) := shiftPts progress packet
    let (progress, packet) := shiftDts progress packet
    (progress, [{ packet with streamIndex := index }])
  | _ => (progress, [])

def writePackets (mapping : List (Option Nat)) (progress : Progress) :
    List Packet → Progress × List Packet
  | [] => (progress, [])
  | packet :: packets =>
    let (progress, written) := rewritePacket mapping progress packet
    let (progress, others) := writePackets mapping progress packets
    (progress, written ++ others)

/-- The offsets behind what was written. -/
def Progress.nextFile (progress : Progress) : Progress :=
  { progress with
    ptsOffset := saturatingAdd progress.lastPts 1
    dtsOffset := saturatingAdd progress.lastDts 1 }

def writeSources (mapping : List (Option Nat)) (progress : Progress) : List Source → List Packet
  | [] => []
  | source :: sources =>
    let (progress, written) := writePackets mapping progress source.packets
    written ++ writeSources mapping progress.nextFile sources

/-- `RsmpegVideoComposer::compose`, with the packets of the file it makes. -/
def compose : List Source → Except String (List Packet)
  | [] => .error "compose requires at least one source"
  | [source] => .ok source.packets
  | first :: others => .ok (writeSources (streamMapping first) ⟨0, 0, 0, 0⟩ (first :: others))

/-! Segments of one constant rate. -/

def packetCount (sources : List Source) : Nat := (sources.map fun s => s.packets.length).sum

/-- The times `0, d, …, (n - 1) d`. -/
def frameTimes (d : Int) (n : Nat) : List Int := (List.range n).map fun i : Nat => i * d

/-- One video stream of packets of duration `d`, in the order of their decode times. -/
structure Segment (d : Int) (source : Source) : Prop where
  video : 0 < source.streams ∧ ∀ p ∈ source.packets, p.streamIndex = 0
  some_ : source.packets ≠ []
  presented : (source.packets.map (·.pts)).Perm (frameTimes d source.packets.length)
  increasing : source.packets.Pairwise fun p q => p.dts < q.dts
  decodedFirst : ∀ p ∈ source.packets, p.dts ≤ p.pts
  decoded : ∀ p ∈ source.packets, avNoptsValue < p.dts
  fits : ∀ p ∈ source.packets, p.pts ≤ i64Max

/-- A stream of the constant rate in which the segments follow each other. -/
structure ConstantRate (d : Int) (sources : List Source) (stream : List Packet) : Prop where
  increasing : stream.Pairwise fun p q => p.dts < q.dts
  decodedFirst : ∀ p ∈ stream, p.dts ≤ p.pts
  presented : (stream.map (·.pts)).Perm (frameTimes d (packetCount sources))
  inOrder : ∀ earlier later, sources = earlier ++ later →
    ∀ p ∈ stream.take (packetCount earlier), ∀ q ∈ stream.drop (packetCount earlier), p.pts < q.pts

/-- Packets of length one, the first segment ending with its last frame and every other one
decoded from time 0 on, and few enough of them for an `i64`. -/
structure UnitSegments (d : Int) (sources : List Source) : Prop where
  unit : d = 1
  lastFrame : ∀ first ∈ sources.head?, ∀ p ∈ first.packets.getLast?, p.pts + 1 = first.packets.length
  fromZero : ∀ source ∈ sources.tail, ∀ p ∈ source.packets.head?, p.dts = 0
  fits : packetCount sources ≤ 2 ^ 63

/-! What is written of packets with both times. -/

/-- A packet of the only video stream with both its times. -/
structure Timed (packet : Packet) : Prop where
  video : packet.streamIndex = 0
  presented : packet.pts ≠ avNoptsValue
  decoded : packet.dts ≠ avNoptsValue

def Progress.shifted (progress : Progress) (packet : Packet) : Packet :=
  ⟨0, saturatingAdd packet.pts progress.ptsOffset, saturatingAdd packet.dts progress.dtsOffset⟩

variable {d : Int} {first source : Source} {sources : List Source} {progress : Progress}
  {packet : Packet} {packets : List Packet}

theorem saturatingAdd_le (a b : Int) : saturatingAdd a b ≤ i64Max := by
  unfold saturatingAdd i64Min i64Max
  omega

theorem saturatingAdd_eq {a b : Int} (low : i64Min ≤ a + b) (high : a + b ≤ i64Max) :
    saturatingAdd a b = a + b := by
  unfold saturatingAdd
  omega

theorem rewritePacket_timed (video : 0 < first.streams) (timed : Timed packet) :
    rewritePacket (streamMapping first) progress packet =
      ({ progress with
          lastPts := (progress.shifted packet).pts, lastDts := (progress.shifted packet).dts },
        [progress.shifted packet]) := by
  have mapped : (streamMapping first)[packet.streamIndex]? = some (some 0) := by
    simp [streamMapping, timed.video, video]
  simp only [rewritePacket, mapped, shiftPts, shiftDts, timed.presented, timed.decoded, ne_eq,
    not_false_eq_true, if_true, Progress.shifted]

theorem writePackets_timed (video : 0 < first.streams) (timed : ∀ p ∈ packets, Timed p) :
    (writePackets (streamMapping first) progress packets).2 = packets.map progress.shifted := by
  induction packets generalizing progress with
  | nil => rfl
  | cons p rest ih =>
    obtain ⟨head, tail⟩ := List.forall_mem_cons.mp timed
    simp only [writePackets, rewritePacket_timed video head, List.singleton_append, List.map_cons,
      List.cons.injEq, true_and]
    exact ih tail

theorem writePackets_last (video : 0 < first.streams) (timed : ∀ p ∈ packets, Timed p)
    (last : packets.getLast? = some packet) :
    (writePackets (streamMapping first) progress packets).1 =
      { progress with
        lastPts := (progress.shifted packet).pts, lastDts := (progress.shifted packet).dts } := by
  induction packets generalizing progress with
  | nil => cases last
  | cons p rest ih =>
    obtain ⟨head, tail⟩ := List.forall_mem_cons.mp timed
    simp only [writePackets, rewritePacket_timed video head]
    cases rest with
    | nil =>
      obtain rfl : p = packet := by simpa using last
      rfl
    | cons q rest =>
      rw [List.getLast?_cons_cons] at last
      rw [ih tail last]
      rfl

/-- Where the file after a last packet starts. -/
def behind (last : Packet) : Progress :=
  ⟨saturatingAdd last.pts 1, saturatingAdd last.dts 1, last.pts, last.dts⟩

theorem writeSources_timed (video : 0 < first.streams) (timed : ∀ p ∈ source.packets, Timed p)
    (last : source.packets.getLast? = some packet) :
    writeSources (streamMapping first) progress (source :: sources) =
      source.packets.map progress.shifted ++
        writeSources (streamMapping first) (behind (progress.shifted packet)) sources := by
  simp only [writeSources, writePackets_timed video timed, writePackets_last video timed last]
  rfl

namespace Segment

theorem pts_nonneg (segment : Segment d source) (positive : 1 ≤ d)
    (member : packet ∈ source.packets) : 0 ≤ packet.pts := by
  have listed := segment.presented.subset (List.mem_map_of_mem member)
  obtain ⟨i, -, equal⟩ := List.mem_map.mp listed
  rw [← equal]
  positivity

theorem timed (segment : Segment d source) (positive : 1 ≤ d) :
    ∀ p ∈ source.packets, Timed p := by
  intro p member
  refine ⟨segment.video.2 p member, ?_, ?_⟩
  · have := segment.pts_nonneg positive member
    unfold avNoptsValue i64Min
    omega
  · have := segment.decoded p member
    omega

theorem exists_last (segment : Segment d source) :
    ∃ last ∈ source.packets, source.packets.getLast? = some last := by
  have some_ := segment.some_
  exact ⟨_, List.getLast_mem some_, List.getLast?_eq_getLast_of_ne_nil some_⟩

theorem length_pos (segment : Segment d source) : 0 < source.packets.length :=
  List.length_pos_of_ne_nil segment.some_

/-- Some packet is presented at each of the times. -/
theorem exists_presented (segment : Segment d source) {i : Nat}
    (small : i < source.packets.length) : ∃ p ∈ source.packets, p.pts = i * d := by
  have listed : (i * d : Int) ∈ source.packets.map (·.pts) := by
    refine segment.presented.symm.subset (List.mem_map.mpr ⟨i, ?_, rfl⟩)
    exact List.mem_range.mpr small
  obtain ⟨p, member, equal⟩ := List.mem_map.mp listed
  exact ⟨p, member, equal⟩

theorem pts_le (segment : Segment d source) (positive : 1 ≤ d)
    (member : packet ∈ source.packets) : packet.pts + d ≤ source.packets.length * d := by
  have listed := segment.presented.subset (List.mem_map_of_mem member)
  obtain ⟨i, small, equal⟩ := List.mem_map.mp listed
  have bound := List.mem_range.mp small
  rw [← equal]
  have : ((i : Int) + 1) * d ≤ source.packets.length * d := by
    apply mul_le_mul_of_nonneg_right <;> omega
  linarith

/-- No packet is decoded after the first time, so none starts above it. -/
theorem head_dts_nonpos (segment : Segment d source) :
    ∀ p ∈ source.packets.head?, p.dts ≤ 0 := by
  intro p given
  obtain ⟨q, member, zero⟩ := segment.exists_presented segment.length_pos
  have last := segment.decodedFirst q member
  have increasing := segment.increasing
  cases found : source.packets with
  | nil => exact absurd found segment.some_
  | cons a rest =>
    rw [found] at given member increasing
    obtain rfl : a = p := by simpa using given
    obtain rfl | later := List.mem_cons.mp member
    · simpa [zero] using last
    · have := (List.pairwise_cons.mp increasing).1 q later
      simp only [zero, Nat.cast_zero, zero_mul] at last
      omega

theorem shifted_start (segment : Segment d source) (positive : 1 ≤ d)
    (member : packet ∈ source.packets) : Progress.shifted ⟨0, 0, 0, 0⟩ packet = packet := by
  have low := segment.pts_nonneg positive member
  have high := segment.fits packet member
  have decoded := segment.decoded packet member
  have before := segment.decodedFirst packet member
  unfold avNoptsValue at decoded
  have pts : saturatingAdd packet.pts 0 = packet.pts := by
    have := saturatingAdd_eq (a := packet.pts) (b := 0)
    unfold i64Min at this
    omega
  have dts : saturatingAdd packet.dts 0 = packet.dts := by
    have := saturatingAdd_eq (a := packet.dts) (b := 0)
    omega
  simp only [Progress.shifted, pts, dts, ← segment.video.2 packet member]

theorem dts_le_last (segment : Segment d source) {last : Packet}
    (given : source.packets.getLast? = some last) (member : packet ∈ source.packets) :
    packet.dts ≤ last.dts := by
  obtain ⟨before, whole⟩ := List.getLast?_eq_some_iff.mp given
  have increasing := segment.increasing
  rw [whole] at increasing member
  obtain ⟨-, -, across⟩ := List.pairwise_append.mp increasing
  obtain early | late := List.mem_append.mp member
  · exact (across packet early last (by simp)).le
  · rw [List.mem_singleton.mp late]

end Segment

/-- What is written of two segments and more. -/
theorem compose_segments (second : Source) (others : List Source) (positive : 1 ≤ d)
    (segment : Segment d first) (last : first.packets.getLast? = some packet) :
    compose (first :: second :: others) =
      .ok (first.packets ++ writeSources (streamMapping first)
        (behind packet) (second :: others)) := by
  have unmoved : first.packets.map (Progress.shifted ⟨0, 0, 0, 0⟩) = first.packets := by
    calc first.packets.map (Progress.shifted ⟨0, 0, 0, 0⟩)
        = first.packets.map id :=
          List.map_congr_left fun p member => segment.shifted_start positive member
      _ = first.packets := List.map_id _
  have kept := segment.shifted_start positive (List.mem_of_getLast? last)
  simp only [compose, writeSources_timed segment.video.1 (segment.timed positive) last, unmoved,
    kept]

/-! The rate is kept only by unit segments. -/

/-- Every time written is an `i64`. -/
theorem pts_le_of_written (progress : Progress) (video : 0 < first.streams) (positive : 1 ≤ d)
    (segments : ∀ s ∈ sources, Segment d s) :
    ∀ p ∈ writeSources (streamMapping first) progress sources, p.pts ≤ i64Max := by
  induction sources generalizing progress with
  | nil =>
    intro p member
    cases member
  | cons source rest ih =>
    obtain ⟨segment, tail⟩ := List.forall_mem_cons.mp segments
    obtain ⟨last, -, given⟩ := segment.exists_last
    rw [writeSources_timed video (segment.timed positive) given]
    intro p member
    obtain here | later := List.mem_append.mp member
    · obtain ⟨q, -, rfl⟩ := List.mem_map.mp here
      exact saturatingAdd_le _ _
    · exact ih _ tail p later

/-- Where decode times increase from file to file, every later file starts at time 0. -/
theorem head_dts_zero (progress : Progress) (video : 0 < first.streams) (positive : 1 ≤ d)
    (segments : ∀ s ∈ sources, Segment d s) (low : i64Min ≤ progress.lastDts)
    (offset : progress.dtsOffset = saturatingAdd progress.lastDts 1)
    (increasing : (writeSources (streamMapping first) progress sources).Pairwise
      fun p q => p.dts < q.dts)
    (above : ∀ q ∈ writeSources (streamMapping first) progress sources, progress.lastDts < q.dts) :
    ∀ s ∈ sources, ∀ p ∈ s.packets.head?, p.dts = 0 := by
  induction sources generalizing progress with
  | nil =>
    intro s member
    cases member
  | cons source rest ih =>
    obtain ⟨segment, tail⟩ := List.forall_mem_cons.mp segments
    obtain ⟨last, member, given⟩ := segment.exists_last
    rw [writeSources_timed video (segment.timed positive) given] at increasing above
    obtain ⟨-, later, across⟩ := List.pairwise_append.mp increasing
    refine List.forall_mem_cons.mpr ⟨?_, ?_⟩
    · intro p head
      have early := segment.head_dts_nonpos p head
      have written : progress.shifted p ∈ source.packets.map progress.shifted :=
        List.mem_map_of_mem (List.mem_of_mem_head? head)
      have after : progress.lastDts < saturatingAdd p.dts progress.dtsOffset :=
        above _ (List.mem_append_left _ written)
      rw [offset] at after
      unfold saturatingAdd i64Min i64Max at after
      unfold i64Min at low
      omega
    · refine ih _ tail ?_ rfl later fun q written => ?_
      · simp only [behind, Progress.shifted, saturatingAdd]
        omega
      · exact across _ (List.mem_map_of_mem member) q written

theorem unit_of_rate {second : Source} {others : List Source} (positive : 1 ≤ d)
    (segments : ∀ s ∈ first :: second :: others, Segment d s)
    (last : first.packets.getLast? = some packet)
    (rate : ConstantRate d (first :: second :: others) (first.packets ++
      writeSources (streamMapping first) (behind packet) (second :: others))) :
    UnitSegments d (first :: second :: others) := by
  obtain ⟨segment, rest⟩ := List.forall_mem_cons.mp segments
  have next := rest second List.mem_cons_self
  obtain ⟨increasing, -, presented, inOrder⟩ := rate
  obtain ⟨-, later, across⟩ := List.pairwise_append.mp increasing
  have atLast := List.mem_of_getLast? last
  have decoded := segment.decoded packet atLast
  have shown := segment.pts_nonneg positive atLast
  have bound := segment.pts_le positive atLast
  have some_ := segment.length_pos
  have written := pts_le_of_written (behind packet) segment.video.1 positive rest
  -- The first frame of the second file is shown right behind the last packet of the first one.
  obtain ⟨p, member, zero⟩ := next.exists_presented next.length_pos
  have placed : (behind packet).shifted p ∈
      writeSources (streamMapping first) (behind packet) (second :: others) := by
    obtain ⟨_, -, given⟩ := next.exists_last
    rw [writeSources_timed segment.video.1 (next.timed positive) given]
    exact List.mem_append_left _ (List.mem_map_of_mem member)
  have time : ((behind packet).shifted p).pts ≤ packet.pts + 1 := by
    simp only [behind, Progress.shifted, zero]
    unfold saturatingAdd i64Min i64Max
    omega
  -- It is one of the frame times, and comes behind all those of the first file.
  obtain ⟨q, early, final⟩ := segment.exists_presented (Nat.sub_one_lt some_.ne')
  have count : packetCount [first] = first.packets.length := by simp [packetCount]
  have order : q.pts < ((behind packet).shifted p).pts := by
    refine inOrder [first] (second :: others) rfl q ?_ _ ?_
    · rw [count, List.take_left]
      exact early
    · rw [count, List.drop_left]
      exact placed
  obtain ⟨k, -, equal⟩ := List.mem_map.mp (presented.subset
    (List.mem_map_of_mem (List.mem_append_right first.packets placed)))
  have beyond : (first.packets.length : Int) * d ≤ k * d := by
    have step : (first.packets.length - 1 : Nat) < k := by
      have : ((first.packets.length - 1 : Nat) : Int) * d < k * d := by
        rw [← final]
        exact order.trans_eq equal.symm
      exact_mod_cast lt_of_mul_lt_mul_right this (by omega)
    apply mul_le_mul_of_nonneg_right <;> omega
  have unit : d = 1 := by omega
  subst unit
  refine ⟨rfl, ?_, ?_, ?_⟩
  · intro _ here p final
    obtain rfl := Option.some.inj here
    obtain rfl := Option.some.inj (last.symm.trans final)
    omega
  · refine head_dts_zero (behind packet) segment.video.1 positive rest ?_ rfl later
      fun q given => across packet atLast q given
    exact decoded.le
  · have total : packetCount (first :: second :: others) ≠ 0 := by
      simp only [packetCount, List.map_cons, List.sum_cons]
      omega
    have top : ((packetCount (first :: second :: others) - 1 : Nat) : Int) ∈
        (first.packets ++ writeSources (streamMapping first) (behind packet)
          (second :: others)).map (·.pts) := by
      refine presented.symm.subset (List.mem_map.mpr ⟨_, ?_, mul_one _⟩)
      exact List.mem_range.mpr (Nat.sub_one_lt total)
    obtain ⟨r, given, equal⟩ := List.mem_map.mp top
    have fits : r.pts ≤ i64Max := by
      obtain here | there := List.mem_append.mp given
      · exact segment.fits r here
      · exact written r there
    unfold i64Max at fits
    omega

/-! Unit segments keep the rate. -/

/-- A unit segment decoded from time 0 on has no frame out of order. -/
theorem Segment.packets_eq (segment : Segment 1 source)
    (zero : ∀ p ∈ source.packets.head?, p.dts = 0) :
    source.packets = (List.range source.packets.length).map fun i : Nat => ⟨0, i, i⟩ := by
  have decodedAt : ∀ (i : Nat) (p : Packet), source.packets[i]? = some p → (i : Int) ≤ p.dts := by
    intro i p held
    have increasing : (source.packets.map (·.dts)).Pairwise (· < ·) :=
      List.pairwise_map.mpr segment.increasing
    have start : ∀ a ∈ (source.packets.map (·.dts)).head?, 0 ≤ a := by
      intro a given
      obtain ⟨q, here, rfl⟩ := Option.map_eq_some_iff.mp (List.head?_map ▸ given)
      exact (zero q here).ge
    simpa using add_le_of_increasing increasing start (i := i) (a := p.dts) (by simp [held])
  have shown : source.packets.map (·.pts) =
      (List.range source.packets.length).map fun i : Nat => (i : Int) := by
    refine eq_range_of_le ?_ ?_
    · simpa [frameTimes] using segment.presented
    · intro i a held
      obtain ⟨p, here, rfl⟩ := Option.map_eq_some_iff.mp (List.getElem?_map ▸ held)
      exact (decodedAt i p here).trans (segment.decodedFirst p (List.mem_of_getElem? here))
  refine List.ext_getElem? fun i => ?_
  cases held : source.packets[i]? with
  | none =>
    have := List.getElem?_eq_none_iff.mp held
    simp [this]
  | some p =>
    have small := (List.getElem?_eq_some_iff.mp held).1
    have member := List.mem_of_getElem? held
    have pts : p.pts = i := by
      have both := congrArg (·[i]?) shown
      rw [List.getElem?_map, held] at both
      simpa [small] using both
    have low := decodedAt i p held
    have high := segment.decodedFirst p member
    have dts : p.dts = i := by omega
    have video := segment.video.2 p member
    obtain ⟨index, shownAt, decoded⟩ := p
    simp only at pts dts video
    simp [small, pts, dts, video]

theorem shifted_inside (i : Nat) (low : i64Min ≤ progress.dtsOffset)
    (order : progress.dtsOffset ≤ progress.ptsOffset) (shown : 0 ≤ progress.ptsOffset)
    (fits : progress.ptsOffset + i < 2 ^ 63) :
    progress.shifted ⟨0, i, i⟩ = ⟨0, progress.ptsOffset + i, progress.dtsOffset + i⟩ := by
  unfold Progress.shifted saturatingAdd i64Min i64Max
  unfold i64Min at low
  congr 1 <;> dsimp only <;> omega

/-- Unit segments are written one frame after the other. -/
theorem writeSources_unit (progress : Progress) (video : 0 < first.streams)
    (segments : ∀ s ∈ sources, Segment 1 s)
    (zero : ∀ s ∈ sources, ∀ p ∈ s.packets.head?, p.dts = 0)
    (low : i64Min ≤ progress.dtsOffset) (order : progress.dtsOffset ≤ progress.ptsOffset)
    (shown : 0 ≤ progress.ptsOffset) (fits : progress.ptsOffset + packetCount sources ≤ 2 ^ 63) :
    writeSources (streamMapping first) progress sources =
      (List.range (packetCount sources)).map fun i : Nat =>
        ⟨0, progress.ptsOffset + i, progress.dtsOffset + i⟩ := by
  induction sources generalizing progress with
  | nil => rfl
  | cons source rest ih =>
    obtain ⟨segment, tail⟩ := List.forall_mem_cons.mp segments
    obtain ⟨fromZero, tailZero⟩ := List.forall_mem_cons.mp zero
    have count : packetCount (source :: rest) = source.packets.length + packetCount rest := by
      simp [packetCount]
    have some_ := segment.length_pos
    have packets := segment.packets_eq fromZero
    generalize source.packets.length = n at packets count some_
    have last : source.packets.getLast? = some ⟨0, (n - 1 : Nat), (n - 1 : Nat)⟩ := by
      rw [packets, List.getLast?_map, List.getLast?_range, if_neg some_.ne']
      rfl
    have written : source.packets.map progress.shifted =
        (List.range n).map fun i : Nat => ⟨0, progress.ptsOffset + i, progress.dtsOffset + i⟩ := by
      rw [packets, List.map_map]
      refine List.map_congr_left fun i member => ?_
      have small := List.mem_range.mp member
      exact shifted_inside i low order shown (by omega)
    have final := shifted_inside (n - 1) low order shown (by omega)
    rw [writeSources_timed video (segment.timed le_rfl) last, written, final, count,
      List.range_add, List.map_append, List.map_map]
    congr 1
    unfold i64Min at low
    have others := ih (behind
      ⟨0, progress.ptsOffset + (n - 1 : Nat), progress.dtsOffset + (n - 1 : Nat)⟩) tail tailZero
    simp only [behind, saturatingAdd, i64Min, i64Max] at others ⊢
    rw [others (by omega) (by omega) (by omega) (by omega)]
    refine List.map_congr_left fun i member => ?_
    have small := List.mem_range.mp member
    simp only [Function.comp_apply, Packet.mk.injEq, true_and]
    omega

theorem rate_of_unit {second : Source} {others : List Source}
    (segments : ∀ s ∈ first :: second :: others, Segment d s)
    (last : first.packets.getLast? = some packet)
    (unit : UnitSegments d (first :: second :: others)) :
    ConstantRate d (first :: second :: others) (first.packets ++
      writeSources (streamMapping first) (behind packet) (second :: others)) := by
  obtain ⟨rfl, lastFrame, fromZero, fits⟩ := unit
  obtain ⟨segment, rest⟩ := List.forall_mem_cons.mp segments
  have atLast := List.mem_of_getLast? last
  have final := lastFrame first rfl packet last
  have decoded := segment.decoded packet atLast
  have order := segment.decodedFirst packet atLast
  have count : packetCount (first :: second :: others) =
      first.packets.length + packetCount (second :: others) := by simp [packetCount]
  have more : 0 < packetCount (second :: others) := by
    have := (rest second List.mem_cons_self).length_pos
    simp only [packetCount, List.map_cons, List.sum_cons]
    omega
  have low : i64Min < packet.dts := decoded
  have ptsOffset : (behind packet).ptsOffset = first.packets.length := by
    unfold behind saturatingAdd i64Min i64Max
    dsimp only
    omega
  have dtsOffset : (behind packet).dtsOffset = packet.dts + 1 := by
    unfold i64Min at low
    unfold behind saturatingAdd i64Min i64Max
    dsimp only
    omega
  have written := writeSources_unit (behind packet) segment.video.1 rest fromZero
    (by omega) (by omega) (by omega) (by omega)
  rw [ptsOffset, dtsOffset] at written
  generalize packetCount (second :: others) = c at written count more fits
  rw [written]
  refine ⟨?_, ?_, ?_, ?_⟩
  · refine List.pairwise_append.mpr ⟨segment.increasing, ?_, ?_⟩
    · refine List.pairwise_map.mpr (List.pairwise_lt_range.imp fun less => ?_)
      dsimp only
      omega
    · intro p early q later
      obtain ⟨i, -, rfl⟩ := List.mem_map.mp later
      have := segment.dts_le_last last early
      dsimp only
      omega
  · intro p member
    obtain early | later := List.mem_append.mp member
    · exact segment.decodedFirst p early
    · obtain ⟨i, -, rfl⟩ := List.mem_map.mp later
      dsimp only
      omega
  · rw [count, frameTimes, List.range_add, List.map_append, List.map_append, List.map_map,
      List.map_map]
    refine segment.presented.append (List.Perm.of_eq (List.map_congr_left fun i _ => ?_))
    simp
  · intro earlier later whole p before q after
    cases earlier with
    | nil => simp [packetCount] at before
    | cons source earlier =>
      obtain ⟨rfl, -⟩ := List.cons.inj whole
      have length : packetCount (first :: earlier) = first.packets.length + packetCount earlier := by
        simp [packetCount]
      rw [length, List.take_length_add_append] at before
      rw [length, List.drop_length_add_append, ← List.map_drop] at after
      obtain ⟨j, above, rfl⟩ := List.mem_map.mp after
      have above : packetCount earlier ≤ j := by
        obtain ⟨k, within, rfl⟩ := List.mem_drop_iff_getElem.mp above
        simp
      obtain early | later := List.mem_append.mp before
      · have := segment.pts_le le_rfl early
        dsimp only
        omega
      · rw [← List.map_take] at later
        obtain ⟨i, below, rfl⟩ := List.mem_map.mp later
        have below : i < packetCount earlier := by
          obtain ⟨k, within, rfl⟩ := List.mem_take_iff_getElem.mp below
          simp only [List.getElem_range]
          omega
        dsimp only
        omega

/-- A single segment is copied as it is. -/
theorem rate_of_single (segment : Segment d source) : ConstantRate d [source] source.packets := by
  have count : packetCount [source] = source.packets.length := by simp [packetCount]
  refine ⟨segment.increasing, segment.decodedFirst, count ▸ segment.presented, ?_⟩
  intro earlier later whole p before q after
  cases earlier with
  | nil => simp [packetCount] at before
  | cons s earlier =>
    obtain ⟨rfl, empty⟩ := List.cons.inj whole
    obtain ⟨rfl, -⟩ := List.append_eq_nil_iff.mp empty.symm
    rw [count, List.drop_length] at after
    cases after

/-- Segments of one rate are composed, and to a stream of that rate exactly when there is only one
of them or they are unit segments. -/
theorem compose_constant_rate_iff (d : Int) (sources : List Source) (positive : 1 ≤ d)
    (segments : ∀ source ∈ sources, Segment d source) :
    (sources ≠ [] → ∃ stream, compose sources = .ok stream) ∧
    ((∀ stream, compose sources = .ok stream → ConstantRate d sources stream) ↔
      sources.length ≤ 1 ∨ UnitSegments d sources) := by
  rcases sources with _ | ⟨first, _ | ⟨second, others⟩⟩
  · simp [compose]
  · have segment := segments first List.mem_cons_self
    refine ⟨fun _ => ⟨_, rfl⟩, fun _ => .inl le_rfl, fun _ stream composed => ?_⟩
    obtain rfl : first.packets = stream := Except.ok.inj composed
    exact rate_of_single segment
  · have segment := segments first List.mem_cons_self
    obtain ⟨last, -, given⟩ := segment.exists_last
    have composed := compose_segments second others positive segment given
    refine ⟨fun _ => ⟨_, composed⟩, fun rate => .inr ?_, ?_⟩
    · exact unit_of_rate positive segments given (rate _ composed)
    · rintro (few | unit) stream same
      · simp at few
      · obtain rfl := Except.ok.inj (composed.symm.trans same)
        exact rate_of_unit segments given unit

/-- Two frames of duration `d`, shown as they are decoded. -/
def twoFrames (d : Int) : Source := ⟨1, [⟨0, 0, 0⟩, ⟨0, d, d⟩]⟩

theorem twoFrames_segment (positive : 1 ≤ d) (fits : d ≤ i64Max) : Segment d (twoFrames d) where
  video := by simp [twoFrames]
  some_ := by simp [twoFrames]
  presented := by simp [twoFrames, frameTimes, List.range_succ]
  increasing := by
    simp [twoFrames]
    omega
  decodedFirst := by simp [twoFrames]
  decoded := by
    simp only [twoFrames, avNoptsValue, i64Min, List.forall_mem_cons]
    refine ⟨by norm_num, by omega, by simp⟩
  fits := by
    simp only [twoFrames, List.forall_mem_cons]
    exact ⟨by norm_num [i64Max], fits, by simp⟩

theorem compose_unit_frames :
    ConstantRate 1 [twoFrames 1, twoFrames 1] [⟨0, 0, 0⟩, ⟨0, 1, 1⟩, ⟨0, 2, 2⟩, ⟨0, 3, 3⟩] := by
  have segment := twoFrames_segment (le_refl 1) (by norm_num [i64Max])
  refine (compose_constant_rate_iff 1 [twoFrames 1, twoFrames 1] le_rfl ?_).2.mpr (.inr ?_) _ rfl
  · simpa using segment
  · refine ⟨rfl, ?_, ?_, ?_⟩
    · simp [twoFrames]
    · simp [twoFrames]
    · norm_num [packetCount, twoFrames]

/-- The second file is moved behind the last packet by a single tick, not by a frame. -/
theorem second_file_a_tick_later :
    (∀ source ∈ [twoFrames 512, twoFrames 512], Segment 512 source) ∧
    compose [twoFrames 512, twoFrames 512] =
      .ok [⟨0, 0, 0⟩, ⟨0, 512, 512⟩, ⟨0, 513, 513⟩, ⟨0, 1025, 1025⟩] ∧
    ¬ConstantRate 512 [twoFrames 512, twoFrames 512]
      [⟨0, 0, 0⟩, ⟨0, 512, 512⟩, ⟨0, 513, 513⟩, ⟨0, 1025, 1025⟩] := by
  refine ⟨?_, rfl, fun rate => ?_⟩
  · have segment := twoFrames_segment (d := 512) (by norm_num) (by norm_num [i64Max])
    simpa using segment
  · have listed : (513 : Int) ∈ frameTimes 512 4 := rate.presented.subset (by simp)
    obtain ⟨i, -, equal⟩ := List.mem_map.mp listed
    omega

end Roboflow.Media.Composer
