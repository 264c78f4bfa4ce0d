import EventTrace.Proofs.Record.Warnings
import EventTrace.Proofs.Run.Interruption
/-! What a run logs of the records that it decodes. Main statement: each pass warns once of each type that is not supported
and occurs among the records that it decodes. A run of two passes reads the trace with two readers, and neither knows what
the other has warned of, so that a type which both of them meet is warned of twice. -/
namespace EventTrace

open Transcript Log.Entry

/-! What is said of records, in all and up to a write -/

namespace Effect

def ofRecord? : Effect → Option Log.Entry
  | .entry e => if e.isOfRecord then some e else none
  | _ => none

def said (effects : List Effect) : List Log.Entry := effects.filterMap ofRecord?

theorem said_append (xs ys : List Effect) : said (xs ++ ys) = said xs ++ said ys := List.filterMap_append

theorem said_entries (entries : List Log.Entry) : said (entries.map .entry) = entries.filter (·.isOfRecord) := by
  induction entries with
  | nil => rfl
  | cons e entries ih =>
    rw [said] at ih ⊢
    cases h : e.isOfRecord <;> simp [ofRecord?, h, ih]

end Effect

namespace Transcript

variable {α β : Type}

/-- The work says `all` of records, and what it has said at each of its writes satisfies `P`. A sink that is full breaks
work off at a write. -/
structure Says (t : Transcript α) (all : List Log.Entry) (P : List Log.Entry → Prop) : Prop where
  all : Effect.said t.effects = all
  atWrite : ∀ {before behind : List Effect} {part : Part} {text : String},
    t.effects = before ++ .wrote part text :: behind → P (Effect.said before)

/-- The work says nothing of records; it writes only if it may. -/
def Mute (mayWrite : Prop) (t : Transcript α) : Prop := t.Says [] fun said => mayWrite ∧ said = []

variable {t : Transcript α} {f : α → Transcript β} {all all' : List Log.Entry} {P P' Q : List Log.Entry → Prop}
  {mayWrite : Prop}

theorem says_of_no_write (hall : Effect.said t.effects = all) (h : ∀ part text, .wrote part text ∉ t.effects) :
    t.Says all P where
  all := hall
  atWrite {before behind part text} heffects := absurd (by simp [heffects]) (h part text)

theorem says_log (entries : List Log.Entry) : (log entries).Says (entries.filter (·.isOfRecord)) P :=
  says_of_no_write (Effect.said_entries entries) (by simp [log])

theorem mute_log {entries : List Log.Entry} (h : ∀ e ∈ entries, e.isOfRecord = false) : (log entries).Mute mayWrite := by
  have hnone : entries.filter (·.isOfRecord) = [] := List.filter_eq_nil_iff.mpr (by simpa using h)
  rw [Mute, ← hnone]
  exact says_log entries

theorem mute_pure (a : α) : (pure a : Transcript α).Mute mayWrite := says_of_no_write rfl (by simp [pure])

theorem mute_ofExcept (result : Except Fault α) : (ofExcept result).Mute mayWrite :=
  says_of_no_write rfl (by simp [ofExcept])

theorem mute_opening : opening.Mute mayWrite := says_of_no_write rfl (by simp [opening])

theorem mute_write (part : Part) (text : String) : (write part text).Mute True where
  all := rfl
  atWrite {before behind _ _} heffects := by
    have hlength := congrArg List.length heffects
    simp only [write, List.length_append, List.length_cons, List.length_nil] at hlength
    obtain rfl : before = [] := List.eq_nil_of_length_eq_zero (by omega)
    exact ⟨trivial, rfl⟩

theorem Says.mono (ht : t.Says all P) (h : ∀ said, P said → Q said) : t.Says all Q where
  all := ht.all
  atWrite heffects := h _ (ht.atWrite heffects)

theorem Says.bind {a : α} (ht : t.Says all P) (hok : t.result = .ok a) (hf : (f a).Says all' P')
    (hP : ∀ said, P said → Q said) (hP' : ∀ said, P' said → Q (all ++ said)) : (t >>= f).Says (all ++ all') Q where
  all := by rw [effects_bind_of_ok hok, Effect.said_append, ht.all, hf.all]
  atWrite {before behind part text} heffects := by
    rw [effects_bind_of_ok hok, List.append_eq_append_iff] at heffects
    rcases heffects with ⟨more, rfl, hmore⟩ | ⟨more, hmore, hrest⟩
    · rw [Effect.said_append, ht.all]
      exact hP' _ (hf.atWrite hmore)
    · cases more with
      | nil =>
        rw [List.append_nil] at hmore
        have hstart : P' (Effect.said []) := hf.atWrite hrest.symm
        rw [← hmore, ht.all, ← List.append_nil all]
        exact hP' _ hstart
      | cons effect more =>
        rw [List.cons_append, List.cons.injEq] at hrest
        rw [← hrest.1] at hmore
        exact hP _ (ht.atWrite hmore)

theorem Says.fail {e : Fault} (ht : t.Says all P) (herror : t.result = .error e) (f : α → Transcript β) :
    (t >>= f).Says all P := by
  have heffects := effects_bind_of_error herror f
  exact ⟨heffects ▸ ht.all, heffects ▸ ht.atWrite⟩

/-- Work behind work that says nothing. -/
theorem Mute.after {a : α} (ht : t.Mute mayWrite) (hok : t.result = .ok a) (hf : (f a).Says all P)
    (hstart : mayWrite → P []) : (t >>= f).Says all P := by
  refine Says.bind ht hok hf (fun said h => ?_) fun said h => h
  rw [h.2]
  exact hstart h.1

/-- Work in front of work that says nothing. -/
theorem Says.ahead (ht : t.Says all P) (hf : ∀ a, (f a).Mute mayWrite) (hend : mayWrite → P all) :
    (t >>= f).Says all P := by
  cases hresult : t.result with
  | error e => exact ht.fail hresult f
  | ok a =>
    have h := ht.bind hresult (hf a) (fun _ h => h) (Q := P) fun said h => by
      rw [h.2, List.append_nil]
      exact hend h.1
    rwa [List.append_nil] at h

theorem Mute.bind (ht : t.Mute mayWrite) (hf : ∀ a, (f a).Mute mayWrite) : (t >>= f).Mute mayWrite :=
  Says.ahead ht hf fun h => ⟨h, rfl⟩

/-- What was done when work was broken off: all of it, or what stands in front of a write. -/
def BrokenOff (room : Option Nat) (effects done : List Effect) : Prop :=
  done = effects ∨ room ≠ none ∧ ∃ part text behind, effects = done ++ .wrote part text :: behind

theorem BrokenOff.cons {room room' : Option Nat} {effects done : List Effect} (h : BrokenOff room effects done)
    (hroom : room ≠ none → room' ≠ none) (effect : Effect) : BrokenOff room' (effect :: effects) (effect :: done) := by
  rcases h with rfl | ⟨hlimit, part, text, behind, rfl⟩
  · exact .inl rfl
  · exact .inr ⟨hroom hlimit, part, text, behind, rfl⟩

/-- Only a sink with a limit breaks work off. -/
theorem said_follow (reason : String) (result : Except Fault α) (room : Option Nat) (effects : List Effect) :
    ∃ done, BrokenOff room effects done ∧
      (Outcome.follow reason result room effects).entries.filter (·.isOfRecord) = Effect.said done := by
  induction effects generalizing room with
  | nil => exact ⟨[], .inl rfl, rfl⟩
  | cons effect rest ih =>
    cases effect with
    | entry e =>
      obtain ⟨done, hdone, hsaid⟩ := ih room
      refine ⟨.entry e :: done, hdone.cons id _, ?_⟩
      rw [Outcome.follow, List.filter_cons, hsaid, Effect.said, Effect.said, List.filterMap_cons, Effect.ofRecord?]
      cases e.isOfRecord <;> rfl
    | opened =>
      obtain ⟨done, hdone, hsaid⟩ := ih room
      exact ⟨.opened :: done, hdone.cons id _, hsaid⟩
    | wrote part text =>
      cases room with
      | none =>
        obtain ⟨done, hdone, hsaid⟩ := ih none
        exact ⟨.wrote part text :: done, hdone.cons id _, hsaid⟩
      | some room =>
        by_cases hfits : text.toUTF8.toList.length ≤ room
        · obtain ⟨done, hdone, hsaid⟩ := ih (some (room - text.toUTF8.toList.length))
          refine ⟨.wrote part text :: done, hdone.cons (fun _ => Option.some_ne_none room) _, ?_⟩
          rw [Outcome.follow, if_pos hfits]
          exact hsaid
        · refine ⟨[], .inr ⟨Option.some_ne_none room, part, text, rest, rfl⟩, ?_⟩
          rw [Outcome.follow, if_neg hfits]
          rfl

theorem Says.outcome (ht : t.Says all P) (room : Option Nat) (reason : String) :
    let said := (t.outcome room reason).entries.filter (·.isOfRecord)
    said = all ∨ room ≠ none ∧ P said := by
  intro said
  obtain ⟨done, rfl | ⟨hroom, part, text, behind, heffects⟩, hsaid⟩ := said_follow reason t.result room t.effects
  · exact .inl (hsaid.trans ht.all)
  · have hsaid' : said = Effect.said done := hsaid
    rw [hsaid']
    exact .inr ⟨hroom, ht.atWrite heffects⟩

end Transcript

/-! The records that a pass decodes, and what is said of them -/

/-- All records up to the first that fails, which was decoded before it failed. -/
def throughFailure (fails : Record → Option Fault) (records : List Record) : List Record :=
  records.take (records.findIdx (fun r => (fails r).isSome) + 1)

theorem throughFailure_cons {fails : Record → Option Fault} {record : Record} {rest : List Record} :
    throughFailure fails (record :: rest) =
      record :: if (fails record).isSome then [] else throughFailure fails rest := by
  rw [throughFailure, List.findIdx_cons]
  cases (fails record).isSome <;> rfl

namespace Transcript

variable {α β : Type} {t : Transcript α} {f : α → Transcript β} {mayWrite : Prop} {records : List Record}

/-- The work says of some records what a new reader logs of them. It writes, if it may, behind what it has said of one of
them. -/
def Tells (mayWrite : Prop) (records : List Record) (t : Transcript α) : Prop :=
  t.Says (Reader.recordLog records) fun said => mayWrite ∧ ∃ done, done <+: records ∧ said = Reader.recordLog done

theorem Mute.tells (ht : t.Mute mayWrite) : t.Tells mayWrite [] :=
  Says.mono ht fun _ h => ⟨h.1, [], List.nil_prefix, h.2⟩

/-- Work behind work that says nothing and succeeds. -/
theorem Mute.before (ht : t.Mute mayWrite) (hend : t.Ends none) (hf : ∀ a, (f a).Tells mayWrite records) :
    (t >>= f).Tells mayWrite records := by
  obtain ⟨a, ha⟩ := hend
  exact Mute.after ht ha (hf a) fun h => ⟨h, [], List.nil_prefix, rfl⟩

theorem Tells.ahead (ht : t.Tells mayWrite records) (hf : ∀ a, (f a).Mute mayWrite) :
    (t >>= f).Tells mayWrite records :=
  Says.ahead ht hf fun h => ⟨h, records, List.prefix_rfl, rfl⟩

end Transcript

theorem throughFailure_of_fine {fails : Record → Option Fault} {records : List Record}
    (h : ∀ r ∈ records, fails r = none) : throughFailure fails records = records := by
  induction records with
  | nil => rfl
  | cons record rest ih =>
    obtain ⟨hrecord, hrest⟩ := List.forall_mem_cons.mp h
    rw [throughFailure_cons, hrecord, ih hrest]
    rfl

section
variable {σ : Type} {step : σ → Record → Transcript σ} {fails : Record → Option Fault} {mayWrite : Prop}

/-- The work says of each record what the reader logs. It writes, if it may, behind what was said of a record. -/
theorem says_followRecords (hstep : ∀ s r, (step s r).Mute mayWrite) (hends : ∀ s r, (step s r).Ends (fails r))
    (reader : Reader) (records : List Record) (s : σ) :
    (followRecords step (reader.logged records) s).Says
      ((reader.logged (throughFailure fails records)).flatMap (·.1))
      fun said => mayWrite ∧ ∃ done, done <+: throughFailure fails records ∧ said = (reader.logged done).flatMap (·.1) := by
  induction records generalizing reader s with
  | nil =>
    have hnothing : (pure s : Transcript σ).Mute False := mute_pure s
    exact Says.mono hnothing fun _ h => h.1.elim
  | cons record rest ih =>
    let behind := (reader.accept record).2
    have hentries : (reader.accept record).1.filter (·.isOfRecord) = (reader.accept record).1 :=
      List.filter_eq_self.mpr (reader.isOfRecord_of_mem_accept record)
    have hline : (log (reader.accept record).1).Says (reader.accept record).1 fun _ => False := by
      have h := says_log (P := fun _ => False) (reader.accept record).1
      rwa [hentries] at h
    -- behind its line the record fails, or the rest is worked through
    have hrest : ((step s record) >>= followRecords step (behind.logged rest)).Says
        ((behind.logged (if (fails record).isSome then [] else throughFailure fails rest)).flatMap (·.1))
        fun said => mayWrite ∧ ∃ done, done <+: (if (fails record).isSome then [] else throughFailure fails rest) ∧
          said = (behind.logged done).flatMap (·.1) := by
      have hend := hends s record
      cases hfails : fails record with
      | some e =>
        rw [hfails] at hend
        refine Says.mono ((hstep s record).fail hend _) fun said h => ⟨h.1, [], List.nil_prefix, h.2⟩
      | none =>
        rw [hfails] at hend
        obtain ⟨s', hs'⟩ := hend
        exact (hstep s record).after hs' (ih behind s') fun h => ⟨h, [], List.nil_prefix, rfl⟩
    rw [throughFailure_cons]
    refine hline.bind rfl hrest (fun _ h => h.elim) fun said h => ?_
    obtain ⟨hwrite, done, hdone, rfl⟩ := h
    exact ⟨hwrite, record :: done, (List.prefix_cons_inj record).mpr hdone, rfl⟩

/-- Likewise a trace, from whose end on nothing is said of records. -/
theorem follow_tells (hstep : ∀ s r, (step s r).Mute mayWrite) (hends : ∀ s r, (step s r).Ends (fails r)) (f : Feed)
    (s : σ) : (f.trace.follow step s).Tells mayWrite (throughFailure fails f.decoded) := by
  obtain ⟨hrecords, hclosing⟩ := Reader.trace_logged { feed := f }
  have hlogged : f.trace.records = Reader.new.logged f.decoded := hrecords.trans (Reader.logged_of_feed (r := .new) f)
  have hall : (followRecords step f.trace.records s).Tells mayWrite (throughFailure fails f.decoded) := by
    rw [hlogged]
    exact says_followRecords hstep hends Reader.new f.decoded s
  refine hall.ahead fun s => (mute_log hclosing).bind fun _ => ?_
  cases f.trace.fault with
  | none => exact mute_pure s
  | some e => exact mute_ofExcept _

end

def Source.decoded (source : Source) (opening : Nat) : List Record :=
  match source.feed opening with
  | .ok f => f.decoded
  | .error _ => []

section
variable {source : Source} (hsource : ∀ e ∈ source.entries, e.topic ≠ .records)
include hsource

theorem Source.openAt_mute {mayWrite : Prop} (i : Nat) : (source.openAt i).Mute mayWrite := by
  have hentries : ∀ e ∈ source.entries, e.isOfRecord = false := fun e he => by simp [isOfRecord, hsource e he]
  exact (mute_log hentries).bind fun _ => mute_opening.bind fun _ => mute_ofExcept _

/-- Work on what a source gives, if it can be opened. -/
theorem Source.opened_tells {β : Type} {mayWrite : Prop} {fails : Record → Option Fault} {work : Feed → Transcript β}
    (hwork : ∀ f, (work f).Tells mayWrite (throughFailure fails f.decoded)) (i : Nat) :
    (source.openAt i >>= work).Tells mayWrite (throughFailure fails (source.decoded i)) := by
  have hresult := (source.openAt_does i).result
  rw [Source.decoded]
  cases hfeed : source.feed i with
  | error reason =>
    rw [hfeed] at hresult
    exact Mute.tells (Says.fail (Source.openAt_mute hsource i) hresult work)
  | ok f =>
    rw [hfeed] at hresult
    exact Mute.after (Source.openAt_mute hsource i) hresult (hwork f) fun h => ⟨h, [], List.nil_prefix, rfl⟩

end

/-! Both passes, and the report around the second -/

theorem TimeBase.observed_mute {α : Type} [Scalar α] {mayWrite : Prop} (t : TimeBase α) (r : Record) :
    (log (t.observed r)).Mute mayWrite := by
  refine mute_log fun e he => ?_
  rw [observed] at he
  cases hfrequency : r.frequency? with
  | none => simp [hfrequency] at he
  | some frequency =>
    rw [hfrequency] at he
    rw [List.mem_singleton.mp he]
    rfl

theorem Aggregator.recorded_mute {α : Type} [Scalar α] {mayWrite : Prop} (id : EventId) (time : α) :
    (log (recorded id time)).Mute mayWrite := by
  refine mute_log fun e he => ?_
  rw [recorded] at he
  split at he
  · rw [List.mem_singleton.mp he]
    rfl
  · simp at he

section
variable (v : Renderer) (settings : Settings)

theorem Tally.step_mute (s : Tally Float) (r : Record) : (step v s r).Mute False := by
  refine (TimeBase.observed_mute _ r).bind fun _ => ?_
  split
  · exact (mute_ofExcept _).bind fun caption => (Aggregator.recorded_mute r.id _).bind fun _ => mute_pure _
  · exact mute_pure _

theorem Listing.step_mute (s : Listing) (r : Record) : (step v settings s r).Mute True := by
  refine (TimeBase.observed_mute _ r).bind fun _ => ?_
  split
  · exact (mute_ofExcept _).bind fun value => (mute_write _ _).bind fun _ => mute_pure _
  · exact mute_pure _

theorem writeStatistics_mute (tally : Tally Float) (report : Report) : (Run.writeStatistics tally report).Mute True := by
  rw [Run.writeStatistics]
  split
  · exact (mute_write _ _).bind fun _ => mute_pure _
  · exact mute_pure _

theorem writeBlankLine_mute (report : Report) : (Run.writeBlankLine settings report).Mute True := by
  rw [Run.writeBlankLine]
  split
  · exact mute_write _ _
  · exact mute_pure _

theorem writeAll_mute (writes : List (Part × String)) : (Run.writeAll writes).Mute True := by
  induction writes with
  | nil => exact mute_pure ()
  | cons x rest ih => exact (mute_write x.1 x.2).bind fun _ => ih

variable {source : Source} (hsource : ∀ e ∈ source.entries, e.topic ≠ .records)
include hsource

theorem collect_tells (t : TimeBase Float) : (collect v source t).Tells False
    (throughFailure (v.fault? Record.isInterval) (source.decoded 0)) := by
  refine Mute.before (mute_log (by simp [isOfRecord])) (ends_log _) fun _ => ?_
  refine Source.opened_tells hsource (fun f => ?_) 0
  refine (follow_tells (Tally.step_mute v) (Tally.step_ends v) f _).ahead fun s => ?_
  exact (mute_log (by simp [isOfRecord, Tally.finished])).bind fun _ => mute_pure s

variable {settings}

theorem list_tells (hshow : settings.showEvents = true) (t : TimeBase Float) (report : Report) :
    (list v settings source t report).Tells True
      (throughFailure (v.fault? (v.isListed settings)) (source.decoded 1)) := by
  refine Mute.before (mute_log (by simp [isOfRecord])) (ends_log _) fun _ => ?_
  refine Mute.before (mute_write _ _) (ends_write _ _) fun _ => ?_
  refine Source.opened_tells hsource (fun f => ?_) 1
  refine (follow_tells (Listing.step_mute v settings) (Listing.step_ends v hshow) f _).ahead fun s => ?_
  exact (mute_log (by simp [isOfRecord])).bind fun _ => mute_pure s

theorem writeEvents_tells (t : TimeBase Float) (report : Report) : (Run.writeEvents v settings source t report).Tells True
    (if settings.showEvents then throughFailure (v.fault? (v.isListed settings)) (source.decoded 1) else []) := by
  rw [Run.writeEvents]
  by_cases hshow : settings.showEvents = true
  · rw [if_pos hshow, if_pos hshow]
    exact (list_tells v hsource hshow t report).ahead fun s => mute_pure _
  · rw [if_neg hshow, if_neg hshow]
    exact Mute.tells (mute_pure _)

theorem writeBlocks_tells (tally : Tally Float) (report : Report) :
    (Run.writeBlocks v settings source tally report).Tells True
      (if settings.showEvents then throughFailure (v.fault? (v.isListed settings)) (source.decoded 1) else []) := by
  rw [Run.writeBlocks]
  by_cases hfirst : settings.statisticsFirst = true
  · rw [if_pos hfirst]
    refine Mute.before (writeStatistics_mute tally report) (writeStatistics_ends tally report) fun report => ?_
    refine Mute.before (writeBlankLine_mute settings report) (writeBlankLine_ends settings report) fun _ => ?_
    exact writeEvents_tells v hsource tally.timeBase report
  · rw [if_neg hfirst]
    refine (writeEvents_tells v hsource tally.timeBase report).ahead fun written => ?_
    refine (writeBlankLine_mute settings written.2).bind fun _ => ?_
    exact (writeStatistics_mute tally written.2).bind fun _ => mute_pure _

end

namespace Run

def counted (v : Renderer) (source : Source) : List Record :=
  throughFailure (v.fault? Record.isInterval) (source.decoded 0)

/-- The records that the second pass decodes. There is no second pass if events are not shown or the first pass fails. -/
def reread (v : Renderer) (settings : Settings) (source : Source) : List Record :=
  match (statistics v settings source).result with
  | .ok _ => if settings.showEvents then throughFailure (v.fault? (v.isListed settings)) (source.decoded 1) else []
  | .error _ => []

section
variable (v : Renderer) (settings : Settings) {source : Source} (hsource : ∀ e ∈ source.entries, e.topic ≠ .records)
include hsource

/-- The first pass does not write, so that a sink breaks off the second at most. -/
theorem says_run : (run v settings source).Says (Reader.recordLog (counted v source) ++
      Reader.recordLog (reread v settings source))
    fun said => ∃ done, done <+: reread v settings source ∧
      said = Reader.recordLog (counted v source) ++ Reader.recordLog done := by
  have hfirst : (statistics v settings source).Tells False (counted v source) := collect_tells v hsource _
  cases hresult : (statistics v settings source).result with
  | error e =>
    have hnone : Reader.recordLog (reread v settings source) = [] := by
      rw [reread, hresult]
      rfl
    rw [hnone, List.append_nil]
    exact Says.mono (Says.fail hfirst hresult _) fun _ h => h.1.elim
  | ok tally =>
    have hsecond : reread v settings source =
        if settings.showEvents then throughFailure (v.fault? (v.isListed settings)) (source.decoded 1) else [] := by
      rw [reread, hresult]
    rw [hsecond]
    refine Says.bind hfirst hresult ((writeBlocks_tells v hsource tally _).ahead fun written => ?_)
      (fun _ h => h.1.elim) fun said h => ?_
    · refine (writeAll_mute written.2.finish).bind fun _ => ?_
      exact (mute_log (by simp [isOfRecord, finished])).bind fun _ => mute_pure _
    · obtain ⟨-, done, hdone, rfl⟩ := h
      exact ⟨done, hdone, rfl⟩

/-- What is logged of records in a run, whatever the sink. -/
theorem filter_isOfRecord_run (room : Option Nat) (reason : String) : ∃ second,
    second <+: reread v settings source ∧ (room = none → second = reread v settings source) ∧
      ((run v settings source).outcome room reason).entries.filter (·.isOfRecord) =
        Reader.recordLog (counted v source) ++ Reader.recordLog second := by
  rcases (says_run v settings hsource).outcome room reason with hall | ⟨hroom, second, hsecond, hsaid⟩
  · exact ⟨_, List.prefix_rfl, fun _ => rfl, hall⟩
  · exact ⟨second, hsecond, fun hnone => absurd hnone hroom, hsaid⟩

end

/-- Where nothing fails, each pass over a trace decodes all records. -/
theorem decoded_of_fine (v : Renderer) (settings : Settings) {f : Feed} (hfault : f.fault = none)
    (hfine : ∀ concerned, v.firstFailure? concerned f.decoded = none) :
    counted v (.steady f) = f.decoded ∧
      reread v settings (.steady f) = if settings.showEvents then f.decoded else [] := by
  have hall (concerned : Record → Bool) : throughFailure (v.fault? concerned) f.decoded = f.decoded := by
    refine throughFailure_of_fine (List.findSome?_eq_none_iff.mp ?_)
    rw [v.findSome?_fault?, hfine]
    rfl
  have hfirst := collect_ends v hfault (.start settings.tickPeriod : TimeBase Float)
  rw [hfine] at hfirst
  obtain ⟨tally, htally⟩ := hfirst
  have hstatistics : (statistics v settings (.steady f)).result = .ok tally := htally
  refine ⟨hall _, ?_⟩
  rw [reread, hstatistics]
  exact congrArg (fun records => if settings.showEvents then records else []) (hall _)

/-- What a kind of entries about records is in the log of two readers. -/
theorem filter_of_filter_isOfRecord {entries : List Log.Entry} {first second : List Record} {kind : Log.Entry → Bool}
    (hkind : ∀ e, kind e = true → e.isOfRecord = true)
    (h : entries.filter (·.isOfRecord) = Reader.recordLog first ++ Reader.recordLog second) :
    entries.filter kind = (Reader.recordLog first).filter kind ++ (Reader.recordLog second).filter kind := by
  rw [← List.filter_append, ← h, List.filter_filter]
  refine (List.filter_congr fun e _ => ?_).symm
  cases hk : kind e with
  | false => rfl
  | true => rw [hkind e hk]; rfl

end Run

/-- A run whose source does not speak of records. Its log has a line for each record that the first pass decodes and for
each that the second does, which a full sink may break off. Of each type that is not supported each pass warns once, at
the first record of the type that it decodes and with the id of that record, and of no other type. There is one warning,
for the first record of the type in the run, just if only one of the passes meets the type. -/
theorem types_warned_once_per_pass (v : Renderer) (settings : Settings) {source : Source}
    (hsource : ∀ e ∈ source.entries, e.topic ≠ .records) (room : Option Nat) (reason : String) :
    let log := ((run v settings source).outcome room reason).entries
    let first := Run.counted v source
    ∃ second, second <+: Run.reread v settings source ∧ (room = none → second = Run.reread v settings source) ∧
      log.filter tellsRecord = Reader.linesFrom 0 first ++ Reader.linesFrom 0 second ∧
      ∀ tag,
        log.filter (warnsOf tag) = (Reader.warning? tag first).toList ++ (Reader.warning? tag second).toList ∧
        (log.filter (warnsOf tag) = (Reader.warning? tag (first ++ second)).toList ↔
          (∀ r ∈ first, Reader.unknownTag? r ≠ some tag) ∨ ∀ r ∈ second, Reader.unknownTag? r ≠ some tag) := by
  intro log first
  obtain ⟨second, hsecond, hall, hlog⟩ := Run.filter_isOfRecord_run v settings hsource room reason
  refine ⟨second, hsecond, hall, ?_, fun tag => ?_⟩
  · rw [Run.filter_of_filter_isOfRecord (fun _ => isOfRecord_of_tellsRecord) hlog, Reader.filter_tellsRecord_recordLog,
      Reader.filter_tellsRecord_recordLog]
  · have hwarnings : log.filter (warnsOf tag) =
        (Reader.warning? tag first).toList ++ (Reader.warning? tag second).toList := by
      rw [Run.filter_of_filter_isOfRecord (fun _ => isOfRecord_of_warnsOf) hlog, Reader.filter_warnsOf_recordLog,
        Reader.filter_warnsOf_recordLog]
    refine ⟨hwarnings, ?_⟩
    rw [hwarnings, Reader.warning?_append, ← Reader.warning?_eq_none_iff, ← Reader.warning?_eq_none_iff]
    cases Reader.warning? tag first <;> cases Reader.warning? tag second <;> simp

/-- Statistics alone are gathered by one pass. Two records of one type are warned of once, and a refused frame is not. -/
theorem types_warned_once_per_pass_of_statistics :
    let known : Frame := ⟨2, List.replicate 8 0 ++ [4, 0, 0, 0] ++ List.replicate 8 0, by decide⟩
    let unknown : Frame := ⟨7, List.replicate 8 0 ++ [5, 0, 0, 0], by decide⟩
    let again : Frame := ⟨7, List.replicate 8 0 ++ [6, 0, 0, 0], by decide⟩
    let refused : Frame := ⟨8, [1, 2, 3], by decide⟩
    let source : Source := .steady { pending := Frame.stream [known, unknown, again, refused] ++ [7], chunk := 3 }
    let log := ((run {} { showEvents := false } source).outcome none "").entries
    (∀ e ∈ source.entries, e.topic ≠ .records) ∧ log.filter (warnsOf 7) = [Reader.Entry.unsupported 7 5] ∧
      log.filter (warnsOf 8) = [] := by
  intro known unknown again refused source log
  let f : Feed := { pending := Frame.stream [known, unknown, again, refused] ++ [7], chunk := 3 }
  have hsource : ∀ e ∈ source.entries, e.topic ≠ .records := by simp [source, Source.steady]
  have hpending : f.pending = Frame.stream [known, unknown, again, refused] ++ [7] := rfl
  have htail : Incomplete [7] := .inl (by decide)
  have hdecoded : f.decoded = [⟨0, 4, 0, .two 0 0⟩, ⟨0, 5, 0, .other 7⟩, ⟨0, 6, 0, .other 7⟩] :=
    Feed.decoded_stream hpending htail rfl
  obtain ⟨hfirst, hsecond⟩ := Run.decoded_of_fine {} { showEvents := false } (f := f) rfl
    fun concerned => Renderer.firstFailure?_of_no_events rfl concerned _
  obtain ⟨second, -, hall, -, hwarnings⟩ := types_warned_once_per_pass {} { showEvents := false } hsource none ""
  have hnone : second = [] := (hall rfl).trans hsecond
  rw [hfirst, hdecoded, hnone] at hwarnings
  exact ⟨hsource, (hwarnings 7).1, (hwarnings 8).1⟩

/-- A trace of one record, whose type is not supported. A run that lists it as well warns of it twice. -/
theorem type_warned_twice :
    let unknown : Frame := ⟨7, List.replicate 8 0 ++ [5, 0, 0, 0], by decide⟩
    let f : Feed := { pending := Frame.stream [unknown] }
    let log := ((run {} {} (.steady f)).outcome none "").entries
    f.decoded = [⟨0, 5, 0, .other 7⟩] ∧
      log.filter (warnsOf 7) = [Reader.Entry.unsupported 7 5, Reader.Entry.unsupported 7 5] := by
  intro unknown f log
  have hsource : ∀ e ∈ (Source.steady f).entries, e.topic ≠ .records := by simp [Source.steady]
  have hpending : f.pending = Frame.stream [unknown] ++ [] := rfl
  have htail : Incomplete [] := .inl (by decide)
  have hdecoded : f.decoded = [⟨0, 5, 0, .other 7⟩] := Feed.decoded_stream hpending htail rfl
  obtain ⟨hfirst, hsecond⟩ := Run.decoded_of_fine {} {} (f := f) rfl
    fun concerned => Renderer.firstFailure?_of_no_events rfl concerned _
  obtain ⟨second, -, hall, hlog⟩ := Run.filter_isOfRecord_run {} {} hsource none ""
  rw [hall rfl, hfirst, hsecond, hdecoded] at hlog
  refine ⟨hdecoded, ?_⟩
  rw [Run.filter_of_filter_isOfRecord (fun _ => isOfRecord_of_warnsOf) hlog, Reader.filter_warnsOf_recordLog,
    Reader.filter_warnsOf_recordLog]
  rfl

end EventTrace
