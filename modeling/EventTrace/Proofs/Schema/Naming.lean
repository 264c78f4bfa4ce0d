import EventTrace.Proofs.Outcome
import EventTrace.Proofs.Table
import EventTrace.Proofs.Text.Runs
import EventTrace.Template.Rendering
/-! Names of values where definitions are repeated. Main statement: of the typedefs of a name the last is asked, of its
members the first, and of the names that a member lists for a value the last is given. -/
namespace EventTrace

open Text

section
variable {α : Type} {p : α → Prop} {xs : List α} {x : α}

def IsFirst (p : α → Prop) (xs : List α) (x : α) : Prop :=
  ∃ before after, xs = before ++ x :: after ∧ p x ∧ ∀ y ∈ before, ¬p y

theorem IsFirst.mem (h : IsFirst p xs x) : x ∈ xs := by
  obtain ⟨before, after, rfl, -⟩ := h
  simp

theorem IsFirst.holds (h : IsFirst p xs x) : p x := by
  obtain ⟨before, after, -, hp, -⟩ := h
  exact hp

theorem find?_eq_some_iff_isFirst [DecidablePred p] : xs.find? (fun y => p y) = some x ↔ IsFirst p xs x := by
  rw [List.find?_eq_some_iff_append]
  simp [IsFirst, and_left_comm]

theorem exists_isFirst (h : ∃ y ∈ xs, p y) : ∃ x, IsFirst p xs x := by
  classical
  obtain ⟨y, hy, hp⟩ := h
  have hsome : (xs.find? (fun y => p y)).isSome := List.find?_isSome.mpr ⟨y, hy, by simpa using hp⟩
  obtain ⟨x, hx⟩ := Option.isSome_iff_exists.mp hsome
  exact ⟨x, find?_eq_some_iff_isFirst.mp hx⟩

end

/-! Members and typedefs as documents list them -/

/-- A member with its names in the order in which they are listed, some values perhaps again. -/
structure Member.Listing where
  name : String
  offset : String := "0"
  type : IntegerType
  bigEndian : Option Bool := none
  names : List (Int64 × String) := []

def Member.Listing.member (m : Member.Listing) : Member where
  name := m.name
  offset := m.offset
  type := m.type
  bigEndian := m.bigEndian
  names := Member.namesOfList m.names

structure Typedef.Listing where
  name : String
  size : UInt32 := 4
  bigEndian : Bool := false
  members : List Member.Listing := []

def Typedef.Listing.typedef (t : Typedef.Listing) : Typedef where
  name := t.name
  size := t.size
  bigEndian := t.bigEndian
  members := t.members.map (·.member)

def Member.Listing.ofDatum? (dialect : Dialect) (d : Datum) : Option Member.Listing := do
  let f ← d.fields? dialect ["name", "offset", "type", "big_endian", "enums"]
  let name ← f.required "name" Datum.text?
  let offset ← f.optional "offset" Member.offsetOfDatum?
  let type ← f.required "type" (Datum.nameOf? dialect IntegerType.ofName?)
  let bigEndian ← f.optional "big_endian" Datum.bool?
  let names ← f.defaulted "enums" (Datum.listOf? (Member.nameOfDatum? dialect)) []
  pure { name, offset := offset.getD "0", type, bigEndian, names }

def Typedef.Listing.ofDatum? (dialect : Dialect) (d : Datum) : Option Typedef.Listing := do
  let f ← d.fields? dialect ["name", "size", "big_endian", "members"]
  let name ← f.required "name" Datum.text?
  let size ← f.defaulted "size" Datum.uint32? 4
  let bigEndian ← f.defaulted "big_endian" Datum.bool? false
  let members ← f.defaulted "members" (Datum.listOf? (Member.Listing.ofDatum? dialect)) []
  pure { name, size, bigEndian, members }

section
variable {α β : Type} (read : Datum → Option α) (g : α → β)

theorem mapM_map (ds : List Datum) : ds.mapM (fun d => (read d).map g) = (ds.mapM read).map (List.map g) := by
  induction ds with
  | nil => rfl
  | cons d ds ih =>
    rw [List.mapM_cons, List.mapM_cons, ih]
    cases read d with
    | none => rfl
    | some a => cases ds.mapM read <;> rfl

theorem Datum.listOf?_map (d : Datum) :
    Datum.listOf? (fun d => (read d).map g) d = (Datum.listOf? read d).map (List.map g) := by
  cases d with
  | list items => exact mapM_map read g items
  | _ => rfl

theorem Fields.defaulted_map (f : Fields) (name : String) (default : α) :
    f.defaulted name (fun d => (read d).map g) (g default) = (f.defaulted name read default).map g := by
  unfold Fields.defaulted
  split <;> rfl

end

theorem Member.ofDatum?_eq (dialect : Dialect) (d : Datum) :
    Member.ofDatum? dialect d = (Member.Listing.ofDatum? dialect d).map (·.member) := by
  simp only [Member.ofDatum?, Member.Listing.ofDatum?, Option.bind_eq_bind, Option.map_bind, Function.comp_def]
  rfl

theorem Typedef.ofDatum?_eq (dialect : Dialect) (d : Datum) :
    Typedef.ofDatum? dialect d = (Typedef.Listing.ofDatum? dialect d).map (·.typedef) := by
  have hmembers (f : Fields) : f.defaulted "members" (Datum.listOf? (Member.ofDatum? dialect)) [] =
      (f.defaulted "members" (Datum.listOf? (Member.Listing.ofDatum? dialect)) []).map (List.map (·.member)) := by
    rw [funext (Member.ofDatum?_eq dialect), funext (Datum.listOf?_map _ _)]
    exact Fields.defaulted_map _ _ f "members" []
  simp only [Typedef.ofDatum?, Typedef.Listing.ofDatum?, hmembers, Option.bind_eq_bind, Option.map_bind,
    Option.bind_map, Function.comp_def]
  rfl

/-! References -/

def IsTrimmed (cs ds : List Char) : Prop :=
  ∃ before behind, cs = before ++ (ds ++ behind) ∧ (∀ c ∈ before, isBlank c = true) ∧ (∀ c ∈ behind, isBlank c = true) ∧
    RunsOut isBlank ds ∧ RunsOut isBlank ds.reverse

/-- The parts of a reference, without blanks around them: what stands in front of the first colon and behind it, or the
whole if there is no colon. -/
inductive Reference.Reads : List Char → Reference → Prop
  | typedef {cs ds : List Char} (hcolon : ':' ∉ cs) (htypedef : IsTrimmed cs ds) : Reads cs ⟨String.ofList ds, none⟩
  | member {front rest ds es : List Char} (hcolon : ':' ∉ front) (htypedef : IsTrimmed front ds)
      (hmember : IsTrimmed rest es) : Reads (front ++ ':' :: rest) ⟨String.ofList ds, some (String.ofList es)⟩

theorem isTrimmed_trim (cs : List Char) : IsTrimmed cs (trim cs) := by
  have hrest : RunsOut isBlank (cs.dropWhile isBlank) := runsOut_dropWhile isBlank cs
  obtain ⟨behind, hsplit, hbehind⟩ :
      ∃ behind, cs.dropWhile isBlank = trim cs ++ behind ∧ ∀ c ∈ behind, isBlank c = true := by
    refine ⟨((cs.dropWhile isBlank).reverse.takeWhile isBlank).reverse, ?_,
      fun c hc => of_mem_takeWhile (List.mem_reverse.mp hc)⟩
    rw [trim, ← List.reverse_append, List.takeWhile_append_dropWhile, List.reverse_reverse]
  refine ⟨cs.takeWhile isBlank, behind, ?_, fun c hc => of_mem_takeWhile hc, hbehind, ?_, ?_⟩
  · rw [← hsplit, List.takeWhile_append_dropWhile]
  · exact RunsOut.of_append (hsplit ▸ hrest)
  · rw [trim, List.reverse_reverse]
    exact runsOut_dropWhile isBlank _

theorem IsTrimmed.trim_eq {cs ds : List Char} (h : IsTrimmed cs ds) : trim cs = ds := by
  obtain ⟨before, behind, rfl, hbefore, hbehind, hfirst, hlast⟩ := h
  have hback : ∀ c ∈ behind.reverse, isBlank c = true := fun c hc => hbehind c (List.mem_reverse.mp hc)
  cases ds with
  | nil =>
    have hall : ∀ c ∈ before ++ behind, isBlank c = true := List.forall_mem_append.mpr ⟨hbefore, hbehind⟩
    have hnone : (before ++ behind).dropWhile isBlank = [] := by simpa using dropWhile_run hall (runsOut_nil isBlank)
    rw [List.nil_append, trim, hnone]
    rfl
  | cons c ds =>
    have hfront : RunsOut isBlank (c :: ds ++ behind) := runsOut_cons.mpr (runsOut_cons.mp hfirst)
    rw [trim, dropWhile_run hbefore hfront, List.reverse_append, dropWhile_run hback hlast, List.reverse_reverse]

namespace Reference

variable {s : String} {r : Reference} {front rest : List Char}

theorem ofString_of_not_mem (h : ':' ∉ s.toList) : ofString s = ⟨String.ofList (trim s.toList), none⟩ := by
  have hrun : ∀ c ∈ s.toList, (c != ':') = true := fun c hc => by simpa using fun heq : c = ':' => h (heq ▸ hc)
  have htake := takeWhile_run hrun (runsOut_nil _)
  have hdrop := dropWhile_run hrun (runsOut_nil _)
  rw [List.append_nil] at htake hdrop
  simp only [ofString, htake, hdrop]

theorem ofString_of_append (hs : s.toList = front ++ ':' :: rest) (h : ':' ∉ front) :
    ofString s = ⟨String.ofList (trim front), some (String.ofList (trim rest))⟩ := by
  have hrun : ∀ c ∈ front, (c != ':') = true := fun c hc => by simpa using fun heq : c = ':' => h (heq ▸ hc)
  have hends : RunsOut (· != ':') (':' :: rest) := runsOut_cons.mpr rfl
  simp only [ofString, hs, takeWhile_run hrun hends, dropWhile_run hrun hends]

/-- A reference is read in one way. -/
theorem reads_iff : Reads s.toList r ↔ r = ofString s := by
  constructor
  · intro h
    generalize hcs : s.toList = cs at h
    cases h with
    | typedef hcolon htypedef => rw [ofString_of_not_mem (hcs ▸ hcolon), hcs, htypedef.trim_eq]
    | member hcolon htypedef hmember => rw [ofString_of_append hcs hcolon, htypedef.trim_eq, hmember.trim_eq]
  · rintro rfl
    obtain hall | ⟨front, c, rest, hcs, hfront, hc⟩ := all_or_first (· != ':') s.toList
    · have hcolon : ':' ∉ s.toList := fun h => by simpa using hall ':' h
      rw [ofString_of_not_mem hcolon]
      exact .typedef hcolon (isTrimmed_trim _)
    · obtain rfl : c = ':' := by simpa using hc
      have hcolon : ':' ∉ front := fun h => by simpa using hfront ':' h
      rw [ofString_of_append hcs hcolon, hcs]
      exact .member hcolon (isTrimmed_trim _) (isTrimmed_trim _)

end Reference

/-! Precedence -/

def Member.Listing.Lists (m : Member.Listing) (value : Int64) : Prop := ∃ name, (value, name) ∈ m.names

/-- The member that is asked for a name: the first of the name that a reference gives, or the first of all that list a name
for the value. -/
def Typedef.Listing.Asked (t : Typedef.Listing) (value : Int64) (r : Reference) (m : Member.Listing) : Prop :=
  (∃ member, r.member = some member ∧ IsFirst (·.name = member) t.members m) ∨
    r.member = none ∧ IsFirst (·.Lists value) t.members m

section
variable {κ δ δ' : Type} [DecidableEq κ] {key : δ → κ} {k : κ} {ds : List δ'}

theorem lastOf?_map (f : δ' → δ) : lastOf? key k (ds.map f) = (lastOf? (fun d => key (f d)) k ds).map f := by
  rw [lastOf?, lastOf?, List.filter_map, List.getLast?_map]
  rfl

theorem lastOf?_isSome_iff {ds : List δ} : (lastOf? key k ds).isSome = true ↔ ∃ d ∈ ds, key d = k := by
  rw [lastOf?, List.getLast?_isSome, ne_eq, List.filter_eq_nil_iff]
  simp

end

section
variable {ts : List Typedef.Listing} {t : Typedef.Listing} {m : Member.Listing} {value : Int64} {name : String}

theorem Member.Listing.getElem?_names (m : Member.Listing) (value : Int64) :
    m.member.names[value]? = (lastOf? (·.1) value m.names).map (·.2) :=
  Member.getElem?_namesOfList m.names value

theorem Member.Listing.name_eq_some_iff :
    m.member.names[value]? = some name ↔ lastOf? (·.1) value m.names = some (value, name) := by
  rw [getElem?_names, Option.map_eq_some_iff]
  constructor
  · rintro ⟨⟨v, name⟩, hlast, rfl⟩
    obtain rfl : v = value := key_of_lastOf? hlast
    exact hlast
  · intro hlast
    exact ⟨_, hlast, rfl⟩

theorem Member.Listing.name_isSome_iff : m.member.names[value]?.isSome = true ↔ m.Lists value := by
  rw [getElem?_names, Option.isSome_map, lastOf?_isSome_iff]
  constructor
  · rintro ⟨⟨v, name⟩, hmem, rfl⟩
    exact ⟨name, hmem⟩
  · rintro ⟨name, hmem⟩
    exact ⟨(value, name), hmem, rfl⟩

theorem Typedef.Listing.member?_eq (t : Typedef.Listing) (name : String) :
    t.typedef.member? name = (t.members.find? fun m => m.name = name).map (·.member) := by
  rw [Typedef.member?, Typedef.Listing.typedef, List.find?_map]
  rfl

theorem Typedef.Listing.nameOf?_eq_some_iff :
    t.typedef.nameOf? value = some name ↔ ∃ m, IsFirst (·.Lists value) t.members m ∧ m.member.names[value]? = some name := by
  have hnone (m : Member.Listing) : m.member.names[value]? = none ↔ ¬m.Lists value := by
    rw [← Member.Listing.name_isSome_iff, Option.not_isSome_iff_eq_none]
  have hsome (m : Member.Listing) (h : m.member.names[value]? = some name) : m.Lists value :=
    Member.Listing.name_isSome_iff.mp (h ▸ rfl)
  rw [Typedef.nameOf?, Typedef.Listing.typedef, List.findSome?_map, List.findSome?_eq_some_iff]
  constructor
  · rintro ⟨before, m, after, hms, hm, hbefore⟩
    exact ⟨m, ⟨before, after, hms, hsome m hm, fun x hx => (hnone x).mp (hbefore x hx)⟩, hm⟩
  · rintro ⟨m, ⟨before, after, hms, -, hbefore⟩, hm⟩
    exact ⟨before, m, after, hms, hm, fun x hx => (hnone x).mpr (hbefore x hx)⟩

theorem TypedefTable.named_eq_ok {reference : String} {found : Option String} :
    named reference value found = .ok name ↔ found = some name := by
  cases found with
  | none => simp [named]
  | some _ => simp [named]

theorem TypedefTable.getElem?_ofListings (ts : List Typedef.Listing) (name : String) :
    (TypedefTable.ofList (ts.map (·.typedef)))[name]? = (lastOf? (·.name) name ts).map (·.typedef) := by
  rw [getElem?_ofList, lastOf?_map]
  rfl

theorem Typedef.Listing.asked_of_none {r : Reference} (h : r.member = none) :
    t.Asked value r m ↔ IsFirst (·.Lists value) t.members m := by
  simp [Asked, h]

theorem Typedef.Listing.asked_of_some {r : Reference} {member : String} (h : r.member = some member) :
    t.Asked value r m ↔ t.members.find? (fun m => m.name = member) = some m := by
  rw [find?_eq_some_iff_isFirst]
  simp [Asked, h]

/-- There is a member to ask that lists a name. -/
theorem Typedef.Listing.exists_asked_iff {r : Reference} : (∃ m, t.Asked value r m ∧ m.Lists value) ↔
    (∃ member m, r.member = some member ∧ IsFirst (·.name = member) t.members m ∧ m.Lists value) ∨
      r.member = none ∧ ∃ m ∈ t.members, m.Lists value := by
  constructor
  · rintro ⟨m, ⟨member, hmember, hfirst⟩ | ⟨hnone, hfirst⟩, hlists⟩
    · exact .inl ⟨member, m, hmember, hfirst, hlists⟩
    · exact .inr ⟨hnone, m, hfirst.mem, hlists⟩
  · rintro (⟨member, m, hmember, hfirst, hlists⟩ | ⟨hnone, hsome⟩)
    · exact ⟨m, .inl ⟨member, hmember, hfirst⟩, hlists⟩
    · obtain ⟨m, hfirst⟩ := exists_isFirst hsome
      exact ⟨m, .inr ⟨hnone, hfirst⟩, hfirst.holds⟩

theorem TypedefTable.resolve_eq_ok {reference : String} :
    (TypedefTable.ofList (ts.map (·.typedef))).resolve value reference = .ok name ↔
      ∃ t m, lastOf? (·.name) (Reference.ofString reference).typedef ts = some t ∧
        t.Asked value (Reference.ofString reference) m ∧ m.member.names[value]? = some name := by
  generalize hr : Reference.ofString reference = r
  simp only [resolve, hr, getElem?_ofListings]
  cases htypedef : lastOf? (·.name) r.typedef ts with
  | none => simp
  | some t =>
    simp only [Option.map_some, Option.some.injEq, exists_and_left, exists_eq_left']
    cases hmember : r.member with
    | none => simp only [named_eq_ok, Typedef.Listing.nameOf?_eq_some_iff, Typedef.Listing.asked_of_none hmember]
    | some member =>
      simp only [Typedef.Listing.member?_eq, Typedef.Listing.asked_of_some hmember]
      cases t.members.find? fun m => m.name = member with
      | none => simp
      | some m => simp [named_eq_ok]

end

theorem Context.nameOf_eq {ctx : Context} {expression reference : String} {v : Value}
    (hv : ctx.evaluate expression = .ok v) :
    ctx.nameOf expression reference = (ctx.typedefs.resolve v.toInt64 reference).mapError .name := by
  rw [nameOf, hv]
  rfl

/-- A name is found exactly if the last typedef of the name that a reference gives has a member to ask that lists one for
the value, and then it is the last that this member lists. A reference to a member asks the first of its name, one to a
typedef the first that lists a name for the value, so that it does not matter which. A name that is not found is a fault of
names and of no other kind. Typedefs of documents list their members and names in the order of the document. -/
theorem names_follow_precedence (ts : List Typedef.Listing) (value : Int64) (reference : String) :
    let table := TypedefTable.ofList (ts.map (·.typedef))
    (∀ (dialect : Dialect) (d : Datum),
      Typedef.ofDatum? dialect d = (Typedef.Listing.ofDatum? dialect d).map (·.typedef)) ∧
    ∃ r, (∀ r', Reference.Reads reference.toList r' ↔ r' = r) ∧
      (∀ name, table.resolve value reference = .ok name ↔ ∃ t m, lastOf? (·.name) r.typedef ts = some t ∧
        t.Asked value r m ∧ lastOf? (·.1) value m.names = some (value, name)) ∧
      ((∃ name, table.resolve value reference = .ok name) ↔ ∃ t, lastOf? (·.name) r.typedef ts = some t ∧
        ((∃ member m, r.member = some member ∧ IsFirst (·.name = member) t.members m ∧ m.Lists value) ∨
          r.member = none ∧ ∃ m ∈ t.members, m.Lists value)) ∧
      ∀ (ctx : Context) (expression : String) (v : Value), ctx.typedefs = table → ctx.evaluate expression = .ok v →
        v.toInt64 = value →
        (∃ name, table.resolve value reference = .ok name ∧ ctx.nameOf expression reference = .ok name) ∨
          ∃ cause, ctx.nameOf expression reference = .error (.name cause) := by
  intro table
  have hok (name : String) : table.resolve value reference = .ok name ↔ _ := TypedefTable.resolve_eq_ok
  refine ⟨Typedef.ofDatum?_eq, Reference.ofString reference, fun r' => Reference.reads_iff, fun name => ?_, ?_, ?_⟩
  · simp only [hok, Member.Listing.name_eq_some_iff]
  · simp only [hok]
    constructor
    · rintro ⟨name, t, m, ht, hm, hname⟩
      exact ⟨t, ht, Typedef.Listing.exists_asked_iff.mp ⟨m, hm, Member.Listing.name_isSome_iff.mp (hname ▸ rfl)⟩⟩
    · rintro ⟨t, ht, hasked⟩
      obtain ⟨m, hm, hlists⟩ := Typedef.Listing.exists_asked_iff.mpr hasked
      obtain ⟨name, hname⟩ := Option.isSome_iff_exists.mp (Member.Listing.name_isSome_iff.mpr hlists)
      exact ⟨name, t, m, ht, hm, hname⟩
  · rintro ctx expression v htable hv rfl
    rw [Context.nameOf_eq hv, htable]
    cases table.resolve v.toInt64 reference with
    | ok name => exact .inl ⟨name, rfl, rfl⟩
    | error cause => exact .inr ⟨cause, rfl⟩

/-- A typedef, a member and a name that are repeated: the last, the first and the last of them count. -/
theorem names_follow_precedence_of_repeated :
    let once : Member.Listing := { name := "m", type := .uint8, names := [(1, "replaced")] }
    let first : Member.Listing := { name := "m", type := .uint8, names := [(1, "old"), (2, "two"), (1, "new")] }
    let second : Member.Listing := { name := "m", type := .uint8, names := [(1, "hidden"), (3, "three")] }
    let ts : List Typedef.Listing := [{ name := "T", members := [once] }, { name := "T", members := [first, second] }]
    let ctx : Context := { typedefs := TypedefTable.ofList (ts.map (·.typedef)) }
    Reference.Reads "T:m".toList ⟨"T", some "m"⟩ ∧ ctx.typedefs.resolve 1 "T:m" = .ok "new" ∧
      (∀ name, ctx.typedefs.resolve 3 "T:m" ≠ .ok name) ∧ ctx.evaluate "3" = .ok (.integer 3) ∧
      ∃ cause, ctx.nameOf "3" "T:m" = .error (.name cause) := by
  intro once first second ts ctx
  have htrimmed (c : Char) (h : isBlank c = false) : IsTrimmed [c] [c] :=
    ⟨[], [], rfl, by simp, by simp, runsOut_cons.mpr h, runsOut_cons.mpr h⟩
  have hreads : Reference.Reads (['T'] ++ ':' :: ['m']) ⟨"T", some "m"⟩ :=
    .member (by decide) (htrimmed 'T' rfl) (htrimmed 'm' rfl)
  have hlast : lastOf? (·.name) "T" ts = some { name := "T", members := [first, second] } := rfl
  have hfirst : IsFirst (fun m : Member.Listing => m.name = "m") [first, second] first := ⟨[], [second], rfl, rfl, by simp⟩
  have hvalue : ctx.evaluate "3" = .ok (.integer 3) := by rfl
  obtain ⟨-, r, hr, hok, -, -⟩ := names_follow_precedence ts 1 "T:m"
  obtain rfl := (hr _).mp hreads
  obtain ⟨-, r', hr', -, hfound, hfault⟩ := names_follow_precedence ts 3 "T:m"
  obtain rfl := (hr' _).mp hreads
  have hmissing (name : String) : ctx.typedefs.resolve 3 "T:m" ≠ .ok name := by
    intro h
    obtain ⟨t, ht, ⟨member, m, hmember, hm, name, hlists⟩ | ⟨hnone, -⟩⟩ := hfound.mp ⟨name, h⟩
    · cases hlast.symm.trans ht
      cases hmember
      cases (find?_eq_some_iff_isFirst.mpr hm : [first, second].find? _ = some m)
      simp [first] at hlists
    · cases hnone
  refine ⟨hreads, (hok "new").mpr ⟨_, first, hlast, .inl ⟨"m", rfl, hfirst⟩, rfl⟩, hmissing, hvalue, ?_⟩
  obtain ⟨name, hname, -⟩ | hcause := hfault ctx "3" (.integer 3) rfl hvalue rfl
  · exact absurd hname (hmissing name)
  · exact hcause

end EventTrace
