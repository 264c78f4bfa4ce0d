import EventTrace.Proofs.Table
import EventTrace.Proofs.Text.Encoding
import EventTrace.Template.Directive
/-! Texts in memory. Main statement: as long as no two texts share a byte, an address leads to the rest of the text that it
lies in, if a character begins there, and to nothing otherwise. A text is followed by one byte that ends it. -/
namespace EventTrace

theorem utf8ByteSize_cons (c : Char) (cs : List Char) :
    (String.ofList (c :: cs)).utf8ByteSize = c.utf8Size + (String.ofList cs).utf8ByteSize := by
  rw [String.ofList_cons, String.utf8ByteSize_append, String.utf8ByteSize_singleton]

theorem dropBytes_append (front rest : List Char) :
    dropBytes (front ++ rest) (String.ofList front).utf8ByteSize = some rest := by
  induction front with
  | nil => exact dropBytes.eq_1 rest
  | cons c front ih =>
    have hpos := c.utf8Size_pos
    obtain ⟨n, hn⟩ : ∃ n, (String.ofList (c :: front)).utf8ByteSize = n + 1 :=
      Nat.exists_eq_add_one.mpr (by rw [utf8ByteSize_cons]; omega)
    have hleft : n + 1 - c.utf8Size = (String.ofList front).utf8ByteSize := by
      rw [← hn, utf8ByteSize_cons]
      omega
    have hle : c.utf8Size ≤ n + 1 := by
      rw [← hn, utf8ByteSize_cons]
      omega
    rw [hn, List.cons_append, dropBytes, if_pos hle, hleft, ih]

/-- What is left begins behind so many bytes. -/
theorem append_of_dropBytes {cs rest : List Char} {n : Nat} (h : dropBytes cs n = some rest) :
    ∃ front, cs = front ++ rest ∧ (String.ofList front).utf8ByteSize = n := by
  fun_induction dropBytes cs n with
  | case1 cs => exact ⟨[], Option.some.inj h, rfl⟩
  | case2 => cases h
  | case3 c cs n hle ih =>
    obtain ⟨front, rfl, hsize⟩ := ih h
    exact ⟨c :: front, rfl, by rw [utf8ByteSize_cons]; omega⟩
  | case4 => cases h

/-- In a list that a test splits into a front and a rest, the longest front that passes is all that passes. -/
theorem takeWhile_eq_filter {α : Type} {p : α → Bool} {l : List α} (h : l.Pairwise fun x y => p y = true → p x = true) :
    l.takeWhile p = l.filter p := by
  induction l with
  | nil => rfl
  | cons x l ih =>
    obtain ⟨hx, hl⟩ := List.pairwise_cons.mp h
    by_cases hp : p x = true
    · rw [List.takeWhile_cons_of_pos hp, List.filter_cons_of_pos hp, ih hl]
    · have hnone : l.filter p = [] := List.filter_eq_nil_iff.mpr fun y hy hpy => hp (hx y hy hpy)
      rw [List.takeWhile_cons_of_neg hp, List.filter_cons_of_neg hp, hnone]

/-- A character of a text that starts at `start` begins at the address. -/
structure BeginsAt (start : UInt64) (text : String) (address : UInt64) : Prop where
  start_le : start.toNat ≤ address.toNat
  lt_end : address.toNat < start.toNat + text.utf8ByteSize
  boundary : (⟨address.toNat - start.toNat⟩ : String.Pos.Raw).IsValid text

/-- A text takes up the bytes of its encoding and the byte that ends it. -/
def Occupies (start : UInt64) (text : String) (byte : Nat) : Prop :=
  start.toNat ≤ byte ∧ byte < start.toNat + (text.utf8ByteSize + 1)

/-- No byte belongs to two texts. -/
def Apart (stored : UInt64 → Option String) : Prop :=
  ∀ start text start' text' byte, stored start = some text → stored start' = some text' → Occupies start text byte →
    Occupies start' text' byte → start = start'

namespace StringTable

def stored? (entries : List (UInt64 × String)) (start : UInt64) : Option String :=
  (lastOf? (·.1) start entries).map (·.2)

variable {t : StringTable} {start address : UInt64} {text : String}

theorem ordered (t : StringTable) : t.toList.Pairwise fun x y => x.1 < y.1 :=
  t.ordered_keys_toList.imp Std.compare_eq_lt.mp

theorem floor?_eq (t : StringTable) (address : UInt64) :
    t.floor? address = (t.toList.filter fun e => e.1 ≤ address).getLast? := by
  refine congrArg List.getLast? (takeWhile_eq_filter (t.ordered.imp fun {x y} hlt hle => ?_))
  have hle : y.1 ≤ address := by simpa using hle
  simpa using UInt64.le_trans (UInt64.le_of_lt hlt) hle

theorem mem_before_iff {e : UInt64 × String} :
    e ∈ t.toList.filter (fun e => e.1 ≤ address) ↔ t[e.1]? = some e.2 ∧ e.1 ≤ address := by
  rw [List.mem_filter, decide_eq_true_eq]
  exact and_congr_left fun _ => Std.ExtTreeMap.mem_toList_iff_getElem?_eq_some

theorem of_floor? (h : t.floor? address = some (start, text)) : t[start]? = some text ∧ start ≤ address :=
  mem_before_iff.mp (List.mem_of_getLast? (floor?_eq t address ▸ h))

/-- No text starts between the one that is found and the address. -/
theorem exists_floor? (hstored : t[start]? = some text) (hle : start ≤ address) :
    ∃ start' text', t.floor? address = some (start', text') ∧ start ≤ start' := by
  have hmem : (start, text) ∈ t.toList.filter fun e => e.1 ≤ address := mem_before_iff.mpr ⟨hstored, hle⟩
  obtain ⟨⟨start', text'⟩, hlast⟩ := Option.isSome_iff_exists.mp (List.getLast?_isSome.mpr (List.ne_nil_of_mem hmem))
  obtain ⟨front, hfront⟩ := List.getLast?_eq_some_iff.mp hlast
  have hordered := List.Pairwise.filter (fun e => e.1 ≤ address) t.ordered
  rw [hfront] at hmem hordered
  refine ⟨start', text', (floor?_eq t address).trans hlast, ?_⟩
  rcases List.mem_append.mp hmem with hmem | hmem
  · exact UInt64.le_of_lt ((List.pairwise_append.mp hordered).2.2 _ hmem _ List.mem_cons_self)
  · cases List.mem_singleton.mp hmem
    exact UInt64.le_refl _

/-- The text that an address lies in is the one that is found, since the first byte of a nearer one would be its own. -/
theorem floor?_of_beginsAt (h : Apart (t[·]?)) (hstored : t[start]? = some text)
    (hbegins : BeginsAt start text address) : t.floor? address = some (start, text) := by
  obtain ⟨start', text', hfloor, hnear⟩ := exists_floor? hstored (UInt64.le_iff_toNat_le.mpr hbegins.start_le)
  obtain ⟨hstored', hle⟩ := of_floor? hfloor
  have hnear := UInt64.le_iff_toNat_le.mp hnear
  have hle := UInt64.le_iff_toNat_le.mp hle
  have hend := hbegins.lt_end
  have hbyte : Occupies start text start'.toNat := ⟨hnear, by omega⟩
  have hbyte' : Occupies start' text' start'.toNat := ⟨Nat.le_refl _, by omega⟩
  obtain rfl := h start text start' text' _ hstored hstored' hbyte hbyte'
  rw [hfloor, Option.some.inj (hstored.symm.trans hstored')]

/-- What is found where a character begins is the rest of the text. -/
theorem lookup_of_beginsAt (h : Apart (t[·]?)) (hstored : t[start]? = some text) (hbegins : BeginsAt start text address) :
    ∃ front, text = front ++ t.lookup address ∧ front.utf8ByteSize = address.toNat - start.toNat := by
  obtain ⟨front, rest, rfl, hsize⟩ := String.Pos.Raw.isValid_iff_exists_append.mp hbegins.boundary
  have hsize : front.utf8ByteSize = address.toNat - start.toNat := congrArg String.Pos.Raw.byteIdx hsize.symm
  have hdrop : dropBytes (front ++ rest).toList (address.toNat - start.toNat) = some rest.toList := by
    rw [String.toList_append, ← hsize, ← dropBytes_append front.toList, String.ofList_toList]
  have hlookup : t.lookup address = rest := by
    rw [lookup, floor?_of_beginsAt h hstored hbegins]
    simp only [hdrop, String.ofList_toList]
  exact ⟨front, by rw [hlookup], hsize⟩

/-- Nothing is found but where a character begins. -/
theorem beginsAt_of_lookup (h : t.lookup address ≠ "") :
    ∃ start text, t[start]? = some text ∧ BeginsAt start text address := by
  unfold lookup at h
  split at h
  next => exact absurd rfl h
  next start text hfloor =>
    split at h
    next => exact absurd rfl h
    next rest hdrop =>
      obtain ⟨hstored, hle⟩ := of_floor? hfloor
      obtain ⟨front, htext, hsize⟩ := append_of_dropBytes hdrop
      have htext : text = String.ofList front ++ String.ofList rest := by
        rw [← String.ofList_append, ← htext, String.ofList_toList]
      have hrest : 0 < (String.ofList rest).utf8ByteSize :=
        Nat.pos_of_ne_zero fun hzero => h (String.utf8ByteSize_eq_zero_iff.mp hzero)
      have hle := UInt64.le_iff_toNat_le.mp hle
      refine ⟨start, text, hstored, hle, ?_, ?_⟩
      · rw [htext, String.utf8ByteSize_append]
        omega
      · exact String.Pos.Raw.isValid_iff_exists_append.mpr ⟨_, _, htext, congrArg String.Pos.Raw.mk hsize.symm⟩

theorem lookup_ne_empty_iff (h : Apart (t[·]?)) :
    t.lookup address ≠ "" ↔ ∃ start text, t[start]? = some text ∧ BeginsAt start text address := by
  refine ⟨beginsAt_of_lookup, ?_⟩
  rintro ⟨start, text, hstored, hbegins⟩ hempty
  obtain ⟨front, htext, hsize⟩ := lookup_of_beginsAt h hstored hbegins
  have hend := hbegins.lt_end
  have hstart := hbegins.start_le
  rw [hempty, String.append_empty] at htext
  rw [htext] at hend
  omega

/-- As long as no two of the texts that are left share a byte, an address leads to the bytes of a text from there on, if a
character of the text begins there, and to nothing otherwise. The directives for names show what it leads to, or the
address itself if that is nothing. -/
theorem lookup_reads_memory {entries : List (UInt64 × String)} (h : Apart (stored? entries)) (address : UInt64) :
    let lookup := (StringTable.ofList entries).lookup
    let found := ∃ start text, stored? entries start = some text ∧ BeginsAt start text address
    (∀ start text, stored? entries start = some text → BeginsAt start text address →
      (lookup address).toUTF8.toList = text.toUTF8.toList.drop (address.toNat - start.toNat)) ∧
    (lookup address ≠ "" ↔ found) ∧
    ∀ d ∈ [Directive.function, .object], ∀ v : Value, v.toUInt64 = address →
      (found → d.render lookup v = .ok (lookup address)) ∧
      (¬found → d.render lookup v = .ok ("0x" ++ String.ofList (Text.hex 8 address.toNat))) := by
  intro lookup found
  have htable : (fun start => (StringTable.ofList entries)[start]?) = stored? entries :=
    funext (getElem?_ofList entries)
  have hapart : Apart ((StringTable.ofList entries)[·]?) := htable ▸ h
  have hfound : lookup address ≠ "" ↔ found := by
    refine (lookup_ne_empty_iff hapart).trans ?_
    simp only [getElem?_ofList]
    rfl
  refine ⟨fun start text hstored hbegins => ?_, hfound, ?_⟩
  · have hentry : (StringTable.ofList entries)[start]? = some text := (getElem?_ofList entries start).trans hstored
    obtain ⟨front, htext, hsize⟩ := lookup_of_beginsAt hapart hentry hbegins
    have hbytes : text.toUTF8.toList = front.toUTF8.toList ++ (lookup address).toUTF8.toList :=
      (congrArg (·.toUTF8.toList) htext).trans (Text.encoded_append _ _)
    rw [hbytes, List.drop_left' ((Text.length_encoded front).trans hsize)]
  · rintro d hd v rfl
    have hrender : d.render lookup v = .ok (Directive.textOrAddress lookup v.toUInt64) := by
      rcases List.mem_cons.mp hd with rfl | hd
      · rfl
      · cases List.mem_singleton.mp hd
        rfl
    rw [hrender, Directive.textOrAddress, ← hfound]
    refine ⟨fun hne => ?_, fun hempty => ?_⟩
    · rw [if_neg (by simpa using hne)]
    · rw [if_pos (by simpa using hempty)]

/-- A text that replaced a longer one, with a character of two bytes, and two texts directly behind it. -/
theorem lookup_reads_memory_of_replaced :
    let entries : List (UInt64 × String) := [(16, "replaced"), (20, ""), (16, "aé"), (21, "zz")]
    let lookup := (StringTable.ofList entries).lookup
    Apart (stored? entries) ∧ stored? entries 16 = some "aé" ∧ BeginsAt 16 "aé" 17 ∧
      (lookup 17).toUTF8.toList = [0xC3, 0xA9] ∧ lookup 18 = "" ∧
      Directive.function.render lookup (.integer 18) = .ok "0x00000012" := by
  intro entries lookup
  have hentries (start : UInt64) : stored? entries start =
      if 21 = start then some "zz" else if 16 = start then some "aé" else if 20 = start then some "" else none := by
    simp only [stored?, entries, lastOf?_cons]
    split <;> split <;> split <;> rfl
  have hstored (start : UInt64) (text : String) (h : stored? entries start = some text) :
      start = 21 ∧ text = "zz" ∨ start = 16 ∧ text = "aé" ∨ start = 20 ∧ text = "" := by
    rw [hentries] at h
    split at h
    next hstart => exact .inl ⟨hstart.symm, (Option.some.inj h).symm⟩
    next =>
      split at h
      next hstart => exact .inr (.inl ⟨hstart.symm, (Option.some.inj h).symm⟩)
      next =>
        split at h
        next hstart => exact .inr (.inr ⟨hstart.symm, (Option.some.inj h).symm⟩)
        next => cases h
  have hapart : Apart (stored? entries) := by
    rintro start text start' text' byte h h' ⟨hle, hlt⟩ ⟨hle', hlt'⟩
    have hzz : "zz".utf8ByteSize = 2 := rfl
    have hae : "aé".utf8ByteSize = 3 := rfl
    have hempty : "".utf8ByteSize = 0 := rfl
    refine UInt64.toNat_inj.mp ?_
    rcases hstored start text h with ⟨rfl, rfl⟩ | ⟨rfl, rfl⟩ | ⟨rfl, rfl⟩ <;>
      rcases hstored start' text' h' with ⟨rfl, rfl⟩ | ⟨rfl, rfl⟩ | ⟨rfl, rfl⟩ <;>
      simp only [UInt64.reduceToNat] at * <;> omega
  have hbegins : BeginsAt 16 "aé" 17 := ⟨by decide, by decide, by decide⟩
  have hmiddle : ¬∃ start text, stored? entries start = some text ∧ BeginsAt start text 18 := by
    rintro ⟨start, text, h, hle, hlt, hboundary⟩
    rcases hstored start text h with ⟨rfl, rfl⟩ | ⟨rfl, rfl⟩ | ⟨rfl, rfl⟩
    · exact absurd hle (by decide)
    · exact absurd hboundary (by decide)
    · exact absurd hle (by decide)
  obtain ⟨hbytes, -, -⟩ := lookup_reads_memory hapart 17
  obtain ⟨-, hnone, hshown⟩ := lookup_reads_memory hapart 18
  refine ⟨hapart, hentries 16, hbegins, ?_, ?_, ?_⟩
  · rw [hbytes 16 "aé" (hentries 16) hbegins, Text.encoded_eq]
    rfl
  · exact Decidable.not_not.mp (mt hnone.mp hmiddle)
  · exact (hshown .function (by decide) (.integer 18) rfl).2 hmiddle

end StringTable
end EventTrace
