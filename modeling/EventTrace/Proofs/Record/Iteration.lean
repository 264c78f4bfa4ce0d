import EventTrace.Record.Reader
import EventTrace.Proofs.Record.Framing
/-! Reading and iterating over a row of frames. Main statement: every call answers one frame and takes no more than
that frame, also if its body is refused; iteration ends at the first refusal. -/
namespace EventTrace

namespace Frame

/-- What reading a frame gives. A refused body is taken for the end of the stream. -/
def answer (f : Frame) : Except Fault Record :=
  match f.record? with
  | some record => .ok record
  | none => .error .endOfStream

/-- The records in front of the first refused frame. -/
def accepted : List Frame → List Record
  | [] => []
  | f :: frames =>
    match f.record? with
    | some record => record :: accepted frames
    | none => []

/-- What iteration gives: those records and, if no frame is refused, the fault behind the last one. -/
def items (fault : Option String) : List Frame → List (Except Fault Record)
  | [] => (fault.map fun reason => .error (.transfer reason)).toList
  | f :: frames =>
    match f.record? with
    | some record => .ok record :: items fault frames
    | none => []

theorem items_none (frames : List Frame) : items none frames = (accepted frames).map .ok := by
  induction frames with
  | nil => rfl
  | cons f frames ih =>
    rw [items, accepted]
    cases f.record? with
    | none => rfl
    | some record => simp [ih]

end Frame

namespace Reader

def afterReads (r : Reader) : Nat → Reader
  | 0 => r
  | n + 1 => r.read.2.afterReads n

def afterNexts (r : Reader) : Nat → Reader
  | 0 => r
  | n + 1 => r.next.2.afterNexts n

def answer (r : Reader) (i : Nat) : Except Fault Record := (r.afterReads i).read.1.2

def item (r : Reader) (i : Nat) : Option (Except Fault Record) := (r.afterNexts i).next.1.2

@[simp] theorem accept_count (r : Reader) (record : Record) : (r.accept record).2.count = r.count + 1 := by
  unfold accept
  split
  · rfl
  · split <;> rfl

@[simp] theorem accept_finished (r : Reader) (record : Record) : (r.accept record).2.finished = r.finished := by
  unfold accept
  split
  · rfl
  · split <;> rfl

section
variable {r : Reader} {f : Frame} {rest : List UInt8} {record : Record}

theorem read_frame (h : r.feed.pending = f.bytes ++ rest) :
    r.read.1.2 = f.answer ∧ r.read.2.feed = { r.feed with pending := rest } ∧
      r.read.2.count = r.count + (if f.record?.isSome then 1 else 0) ∧ r.read.2.finished = r.finished := by
  unfold read
  rw [Feed.takeFrame_frame h]
  cases hf : Record.decode? f.tag f.body with
  | none => simp [Frame.answer, Frame.record?, hf]
  | some record => simp [Frame.answer, Frame.record?, hf]

theorem read_incomplete (h : Incomplete r.feed.pending) : r.read.1.2 = .error r.feed.shortage := by
  have hfail := Feed.takeFrame_incomplete h
  rcases he : r.feed.takeFrame with ⟨answer, feed⟩
  rw [he] at hfail
  obtain rfl : answer = .error r.feed.shortage := hfail
  simp [read, he]

theorem next_of_ok (hr : r.finished = false) (h : r.read.1.2 = .ok record) :
    r.next.1.2 = some (.ok record) ∧ r.next.2 = r.read.2 := by
  rcases hread : r.read with ⟨⟨entries, answer⟩, r'⟩
  rw [hread] at h
  obtain rfl : answer = .ok record := h
  simp [next, hr, hread]

theorem next_of_error {e : Fault} (hr : r.finished = false) (h : r.read.1.2 = .error e) :
    r.next.1.2 = (if e = .endOfStream then none else some (.error e)) ∧ r.next.2.finished = true := by
  rcases hread : r.read with ⟨⟨entries, answer⟩, r'⟩
  rw [hread] at h
  obtain rfl : answer = .error e := h
  cases e with
  | endOfStream => simp [next, hr, hread]
  | render cause => simp [next, hr, hread]
  | transfer reason => simp [next, hr, hread]
  | document reason => simp [next, hr, hread]

theorem next_accepted (hr : r.finished = false) (h : r.feed.pending = f.bytes ++ rest)
    (hf : f.record? = some record) :
    r.next.1.2 = some (.ok record) ∧ r.next.2.feed = { r.feed with pending := rest } ∧
      r.next.2.finished = false := by
  obtain ⟨hanswer, hfeed, _, hfinished⟩ := read_frame h
  rw [Frame.answer, hf] at hanswer
  obtain ⟨hitem, hnext⟩ := next_of_ok hr hanswer
  rw [hnext]
  exact ⟨hitem, hfeed, hfinished.trans hr⟩

theorem next_refused (hr : r.finished = false) (h : r.feed.pending = f.bytes ++ rest) (hf : f.record? = none) :
    r.next.1.2 = none ∧ r.next.2.finished = true := by
  have hanswer := (read_frame h).1
  rw [Frame.answer, hf] at hanswer
  exact next_of_error hr hanswer

end

theorem item_of_finished {r : Reader} (h : r.finished = true) (i : Nat) : r.item i = none := by
  have hnext : r.next = (([], none), r) := by simp [next, h]
  induction i with
  | zero => rw [item, afterNexts, hnext]
  | succ i ih =>
    rw [item, afterNexts, hnext]
    exact ih

/-- Where iteration ends, this call is the last that can give an item. -/
theorem item_of_last {r : Reader} (h : r.next.2.finished = true) (i : Nat) : r.item i = r.next.1.2.toList[i]? := by
  cases i with
  | zero =>
    rw [item, afterNexts]
    cases r.next.1.2 <;> rfl
  | succ i =>
    have hnone : r.item (i + 1) = none := item_of_finished h i
    rw [hnone]
    cases r.next.1.2 <;> rfl

/-- Reading goes on behind every frame, refused or not. -/
theorem afterReads_stream {r : Reader} {frames : List Frame} {tail : List UInt8}
    (h : r.feed.pending = Frame.stream frames ++ tail) {i : Nat} (hi : i ≤ frames.length) :
    (r.afterReads i).feed = { r.feed with pending := Frame.stream (frames.drop i) ++ tail } ∧
      (r.afterReads i).count = r.count + (frames.take i).countP (·.record?.isSome) := by
  induction i generalizing r frames with
  | zero =>
    refine ⟨?_, by simp [afterReads]⟩
    rw [afterReads, List.drop_zero, ← h]
  | succ i ih =>
    cases frames with
    | nil => simp at hi
    | cons f frames =>
      rw [Frame.stream_cons, List.append_assoc] at h
      obtain ⟨_, hfeed, hcount, _⟩ := read_frame h
      have hpending : r.read.2.feed.pending = Frame.stream frames ++ tail := by rw [hfeed]
      obtain ⟨hfeed', hcount'⟩ := ih hpending (by simpa using hi)
      refine ⟨?_, ?_⟩
      · rw [afterReads, hfeed', hfeed, List.drop_succ_cons]
      · rw [afterReads, hcount', hcount, List.take_succ_cons, List.countP_cons]
        omega

/-- Iteration over a row of frames gives its items, and nothing behind them. -/
theorem item_stream {r : Reader} {frames : List Frame} {tail : List UInt8} (hr : r.finished = false)
    (h : r.feed.pending = Frame.stream frames ++ tail) (htail : Incomplete tail) (i : Nat) :
    r.item i = (Frame.items r.feed.fault frames)[i]? := by
  induction frames generalizing r i with
  | nil =>
    obtain ⟨hitem, hdone⟩ := next_of_error hr (read_incomplete (r := r) (h.symm ▸ htail))
    rw [item_of_last hdone, hitem]
    cases hfault : r.feed.fault with
    | none => simp [Feed.shortage, hfault, Frame.items]
    | some reason => simp [Feed.shortage, hfault, Frame.items]
  | cons f frames ih =>
    rw [Frame.stream_cons, List.append_assoc] at h
    rw [Frame.items]
    cases hf : f.record? with
    | none =>
      obtain ⟨hitem, hdone⟩ := next_refused hr h hf
      rw [item_of_last hdone, hitem]
      rfl
    | some record =>
      obtain ⟨hitem, hfeed, hgo⟩ := next_accepted hr h hf
      cases i with
      | zero => exact hitem
      | succ i =>
        calc r.item (i + 1)
          _ = r.next.2.item i := rfl
          _ = (Frame.items r.feed.fault frames)[i]? := by rw [ih hgo (by rw [hfeed]), hfeed]

theorem trace_of_ok {r : Reader} {record : Record} (h : r.next.1.2 = some (.ok record)) :
    r.trace.records = (r.next.1.1, record) :: r.next.2.trace.records ∧ r.trace.fault = r.next.2.trace.fault := by
  rcases hnext : r.next with ⟨⟨entries, answer⟩, r'⟩
  rw [hnext] at h
  obtain rfl : answer = some (.ok record) := h
  rw [trace]
  split
  next h' =>
    rw [hnext] at h'
    cases h'
  next h' =>
    rw [hnext] at h'
    cases h'
  next h' =>
    rw [hnext] at h'
    cases h'
    exact ⟨rfl, rfl⟩

theorem trace_of_none {r : Reader} (h : r.next.1.2 = none) : r.trace.records = [] ∧ r.trace.fault = none := by
  rw [trace]
  split
  next => exact ⟨rfl, rfl⟩
  next h' =>
    rw [h'] at h
    cases h
  next h' =>
    rw [h'] at h
    cases h

/-- Over a feed that only ends, all of iteration is the records in front of the first refused frame. -/
theorem trace_stream {r : Reader} {frames : List Frame} {tail : List UInt8} (hr : r.finished = false)
    (h : r.feed.pending = Frame.stream frames ++ tail) (htail : Incomplete tail) (hfault : r.feed.fault = none) :
    r.trace.records.map (·.2) = Frame.accepted frames ∧ r.trace.fault = none := by
  induction frames generalizing r with
  | nil =>
    have hnone : r.next.1.2 = none := by
      have hitem := item_stream hr h htail 0
      rwa [hfault] at hitem
    obtain ⟨hrecords, hno⟩ := trace_of_none hnone
    exact ⟨by rw [hrecords]; rfl, hno⟩
  | cons f frames ih =>
    rw [Frame.stream_cons, List.append_assoc] at h
    rw [Frame.accepted]
    cases hf : f.record? with
    | none =>
      obtain ⟨hrecords, hno⟩ := trace_of_none (next_refused hr h hf).1
      exact ⟨by rw [hrecords]; rfl, hno⟩
    | some record =>
      obtain ⟨hitem, hfeed, hgo⟩ := next_accepted hr h hf
      obtain ⟨hrecords, hno⟩ := ih hgo (by rw [hfeed]) (by rw [hfeed]; exact hfault)
      obtain ⟨htrace, hsame⟩ := trace_of_ok hitem
      exact ⟨by rw [htrace, List.map_cons, hrecords], hsame.trans hno⟩

/-- A new reader on a row of frames and a tail that does not begin with one, whatever the size of the chunks: call `i`
answers frame `i` and takes its bytes and no others, the accepted frames are counted, and the tail is the end of the
stream. Iteration gives the records in front of the first refused frame and then nothing for ever. -/
theorem reader_keeps_framing (frames : List Frame) (tail : List UInt8) (htail : Incomplete tail) (feed : Feed)
    (hpending : feed.pending = Frame.stream frames ++ tail) (hfault : feed.fault = none) :
    let r : Reader := { feed }
    (∀ i (h : i < frames.length), r.answer i = frames[i].answer ∧
      (r.afterReads i).feed.pending = frames[i].bytes ++ (r.afterReads (i + 1)).feed.pending) ∧
    (∀ i ≤ frames.length, (r.afterReads i).count = (frames.take i).countP (·.record?.isSome)) ∧
    r.answer frames.length = .error .endOfStream ∧
    ∀ i, r.item i = ((Frame.accepted frames)[i]?).map .ok := by
  intro r
  have hreads {i : Nat} (hi : i ≤ frames.length) := afterReads_stream (r := r) hpending hi
  refine ⟨?_, ?_, ?_, ?_⟩
  · intro i hi
    have hfront : (r.afterReads i).feed.pending = frames[i].bytes ++ (Frame.stream (frames.drop (i + 1)) ++ tail) := by
      rw [(hreads (Nat.le_of_lt hi)).1, List.drop_eq_getElem_cons hi, Frame.stream_cons, List.append_assoc]
    refine ⟨(read_frame hfront).1, ?_⟩
    rw [hfront, (hreads hi).1]
  · intro i hi
    simpa [r] using (hreads hi).2
  · have hend : (r.afterReads frames.length).feed = { feed with pending := tail } := by
      simpa [r] using (hreads (Nat.le_refl _)).1
    have hread := read_incomplete (r := r.afterReads frames.length) (by rw [hend]; exact htail)
    rw [hend, Feed.shortage, hfault] at hread
    exact hread
  · intro i
    rw [item_stream rfl hpending htail, hfault, Frame.items_none, List.getElem?_map]

/-- A refused frame, a frame of an unknown type and three bytes behind them, delivered five bytes at a time. -/
theorem reader_keeps_framing_behind_refusal :
    let refused : Frame := ⟨2, List.replicate 12 0, by decide⟩
    let unknown : Frame := ⟨7, List.replicate 12 0, by decide⟩
    let r : Reader := { feed := { pending := Frame.stream [refused, unknown] ++ [1, 0, 9], chunk := 5 } }
    Incomplete [1, 0, 9] ∧ r.answer 0 = .error .endOfStream ∧ r.answer 1 = .ok ⟨0, 0, 0, .other 7⟩ ∧
      r.answer 2 = .error .endOfStream ∧ (r.afterReads 2).count = 1 ∧ r.item 0 = none := by
  intro refused unknown r
  have htail : Incomplete [1, 0, 9] := .inl (by decide)
  obtain ⟨hanswers, hcounts, hend, hitems⟩ :=
    reader_keeps_framing [refused, unknown] [1, 0, 9] htail r.feed rfl rfl
  refine ⟨htail, ?_, ?_, hend, ?_, ?_⟩
  · exact (hanswers 0 (by decide)).1.trans rfl
  · exact (hanswers 1 (by decide)).1.trans rfl
  · exact (hcounts 2 (by decide)).trans (by decide)
  · exact (hitems 0).trans rfl

end Reader

end EventTrace
