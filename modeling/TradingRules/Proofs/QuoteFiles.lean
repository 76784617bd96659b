import Mathlib.Data.List.Perm.Basic
import TradingRules.Csv.Directory
import TradingRules.Files.Tree
import TradingRules.Proofs.QuoteOrder

/-!
# What a file of quotes is loaded as

A file is loaded as a whole or not at all. Every record below the heading is a quote, each of its
columns read from its own place, or the first record that is none decides the fault, and in it the
first column from the left. How text falls into records is taken as it is; nothing is assumed of the
records.

The asset does not see where a record was. Data rows in another order therefore make the same asset,
as long as no two quotes share a time.
-/

namespace TradingRules.Csv

open Text

section Columns

/-- The columns of a file of quotes. -/
inductive Column where
  | time
  | field (f : Field)

/-- The place of a column in a record. -/
def Column.index : Column → Nat
  | .time => 0
  | .field .opening => 1
  | .field .high => 2
  | .field .low => 3
  | .field .close => 4
  | .field .volume => 5

def Column.name : Column → String
  | .time => "timestamp"
  | .field f => Named.name f

/-- The columns from left to right. -/
def columns : List Column :=
  [.time, .field .opening, .field .high, .field .low, .field .close, .field .volume]

theorem columns_at (c : Column) : columns[c.index]? = some c := by
  cases c with
  | time => rfl
  | field f => cases f <;> rfl

/-- The quote that a record of some fields shows. A time is read as it stands and a number without
the blanks around it. -/
structure Shows (fields : List String) (q : Quote) : Prop where
  time : ∃ s, fields[0]? = some s ∧ Timestamp.parse? s = some q.time
  opening : ∃ s, fields[1]? = some s ∧ Decimal.readFloat (trimmed s) = .ok q.opening
  high : ∃ s, fields[2]? = some s ∧ Decimal.readFloat (trimmed s) = .ok q.high
  low : ∃ s, fields[3]? = some s ∧ Decimal.readFloat (trimmed s) = .ok q.low
  close : ∃ s, fields[4]? = some s ∧ Decimal.readFloat (trimmed s) = .ok q.close
  volume : ∃ s, fields[5]? = some s ∧ Decimal.readInteger (trimmed s) = .ok q.volume

/-- What is wrong with a column of a record: it is not there, or its text cannot be read. -/
inductive Faulty (r : Record) : Column → RowFault → Prop
  | missing {c : Column} (absent : r.fields[c.index]? = none) :
      Faulty r c (.missing r.place.line c.name)
  | time {s : String} (present : r.fields[0]? = some s) (unread : Timestamp.parse? s = none) :
      Faulty r .time (.timestamp r.place.line s)
  | price {f : Field} {s : String} {cause : Decimal.NumberFault} (no_volume : f ≠ .volume)
      (present : r.fields[(Column.field f).index]? = some s)
      (unread : Decimal.readFloat (trimmed s) = .error cause) :
      Faulty r (.field f) (.invalid r.place.line (Column.field f).name cause)
  | volume {s : String} {cause : Decimal.NumberFault} (present : r.fields[5]? = some s)
      (unread : Decimal.readInteger (trimmed s) = .error cause) :
      Faulty r (.field .volume) (.invalid r.place.line "volume" cause)

/-- The fault of the first column from the left that has one. -/
def FirstFault (r : Record) (fault : RowFault) : Prop :=
  ∃ before c after, columns = before ++ c :: after ∧
    (∀ d ∈ before, ∀ other, ¬ Faulty r d other) ∧ Faulty r c fault

/-- The text of a fault in a column begins with the line of its record and names the column. -/
theorem Faulty.message {r : Record} {c : Column} {fault : RowFault} (faulty : Faulty r c fault)
    (path : String) : ∃ problem more, (problem = ": missing " ∨ problem = ": invalid ") ∧
      fault.message path = "line " ++ toString r.place.line ++ problem ++ c.name ++ more := by
  cases faulty with
  | missing absent => exact ⟨": missing ", " column", .inl rfl, rfl⟩
  | @time s present unread =>
    have words : ": invalid timestamp '" = ": invalid " ++ ("timestamp" ++ " '") := rfl
    refine ⟨": invalid ", " '" ++ s ++ "'", .inr rfl, ?_⟩
    simp only [RowFault.message, Column.name, words, String.append_assoc]
  | @price f s cause no_volume present unread =>
    refine ⟨": invalid ", " value: " ++ cause.message, .inr rfl, ?_⟩
    simp only [RowFault.message, String.append_assoc]
  | @volume s cause present unread =>
    refine ⟨": invalid ", " value: " ++ cause.message, .inr rfl, ?_⟩
    simp only [RowFault.message, String.append_assoc]
    rfl

end Columns

section Reading

variable {r : Record} {q : Quote} {fault : RowFault}

theorem time_eq_ok_iff {t : Timestamp} :
    r.time = .ok t ↔ ∃ s, r.fields[0]? = some s ∧ Timestamp.parse? s = some t := by
  unfold Record.time
  cases r.fields[0]? with
  | none => simp
  | some s => cases read : Timestamp.parse? s <;> simp [read]

theorem time_eq_error_iff : r.time = .error fault ↔ Faulty r .time fault := by
  constructor
  · intro failed
    unfold Record.time at failed
    split at failed
    · rename_i absent
      obtain rfl := Except.error.inj failed
      exact .missing absent
    · rename_i s present
      split at failed
      · cases failed
      · rename_i unread
        obtain rfl := Except.error.inj failed
        exact .time present unread
  · intro faulty
    cases faulty with
    | missing absent =>
      have nothing : r.fields[0]? = none := absent
      simp only [Record.time, nothing]
      rfl
    | time present unread => simp only [Record.time, present, unread]

section Numbers

variable {α : Type} {read : String → Except Decimal.NumberFault α} {index : Nat} {name : String}

theorem column_eq_ok_iff {x : α} : r.column read index name = .ok x ↔
    ∃ s, r.fields[index]? = some s ∧ read (trimmed s) = .ok x := by
  unfold Record.column
  cases r.fields[index]? with
  | none => simp
  | some s => cases result : read (trimmed s) <;> simp [result]

theorem column_eq_error_iff : r.column read index name = .error fault ↔
    (r.fields[index]? = none ∧ fault = .missing r.place.line name) ∨
      ∃ s cause, r.fields[index]? = some s ∧ read (trimmed s) = .error cause ∧
        fault = .invalid r.place.line name cause := by
  unfold Record.column
  cases r.fields[index]? with
  | none => simp [eq_comm]
  | some s => cases result : read (trimmed s) <;> simp [result, eq_comm]

end Numbers

theorem price_eq_error_iff {f : Field} (no_volume : f ≠ .volume) :
    r.price (Column.field f).index (Column.field f).name = .error fault ↔
      Faulty r (.field f) fault := by
  rw [Record.price, column_eq_error_iff]
  constructor
  · rintro (⟨absent, rfl⟩ | ⟨s, cause, present, unread, rfl⟩)
    · exact .missing absent
    · exact .price no_volume present unread
  · intro faulty
    cases faulty with
    | missing absent => exact .inl ⟨absent, rfl⟩
    | price _ present unread => exact .inr ⟨_, _, present, unread, rfl⟩
    | volume present unread => exact absurd rfl no_volume

theorem volume_eq_error_iff :
    r.column Decimal.readInteger 5 "volume" = .error fault ↔ Faulty r (.field .volume) fault := by
  rw [column_eq_error_iff]
  constructor
  · rintro (⟨absent, rfl⟩ | ⟨s, cause, present, unread, rfl⟩)
    · exact @Faulty.missing r (.field .volume) absent
    · exact .volume present unread
  · intro faulty
    cases faulty with
    | missing absent => exact .inl ⟨absent, rfl⟩
    | price no_volume present unread => exact absurd rfl no_volume
    | volume present unread => exact .inr ⟨_, _, present, unread, rfl⟩

/-- Whether a column can be read. -/
def check (r : Record) : Column → Except RowFault Unit
  | .time => verdict r.time
  | .field .volume => verdict (r.column Decimal.readInteger 5 "volume")
  | .field f => verdict (r.price (Column.field f).index (Column.field f).name)

theorem check_eq_error_iff {c : Column} : check r c = .error fault ↔ Faulty r c fault := by
  cases c with
  | time => exact verdict_eq_error_iff.trans time_eq_error_iff
  | field f =>
    cases f with
    | volume => exact verdict_eq_error_iff.trans volume_eq_error_iff
    | opening => exact verdict_eq_error_iff.trans (price_eq_error_iff (by decide))
    | high => exact verdict_eq_error_iff.trans (price_eq_error_iff (by decide))
    | low => exact verdict_eq_error_iff.trans (price_eq_error_iff (by decide))
    | close => exact verdict_eq_error_iff.trans (price_eq_error_iff (by decide))

theorem check_eq_ok_iff {c : Column} :
    check r c = .ok ⟨⟩ ↔ ∀ other, ¬ Faulty r c other := by
  constructor
  · intro readable other faulty
    rw [check_eq_error_iff.mpr faulty] at readable
    cases readable
  · intro sound
    cases result : check r c with
    | ok => rfl
    | error other => exact absurd (check_eq_error_iff.mp result) (sound other)

/-- A quote is read column by column, from the left. -/
theorem verdict_quote : verdict r.quote = forM columns (check r) := by
  simp only [Record.quote, columns, List.forM_cons, List.forM_nil, check, verdict_bind,
    verdict_then, pure_eq_ok, verdict_ok]
  rfl

theorem quote_eq_ok_iff : r.quote = .ok q ↔ Shows r.fields q := by
  simp only [Record.quote, Record.price, bind_eq_ok_iff, time_eq_ok_iff, column_eq_ok_iff,
    pure_eq_ok, Except.ok.injEq]
  constructor
  · rintro ⟨time, h₀, opening, h₁, high, h₂, low, h₃, close, h₄, volume, h₅, rfl⟩
    exact ⟨h₀, h₁, h₂, h₃, h₄, h₅⟩
  · rintro ⟨h₀, h₁, h₂, h₃, h₄, h₅⟩
    exact ⟨_, h₀, _, h₁, _, h₂, _, h₃, _, h₄, _, h₅, rfl⟩

theorem quote_eq_error_iff : r.quote = .error fault ↔ FirstFault r fault := by
  rw [← verdict_eq_error_iff, verdict_quote, forM_eq_error_iff]
  simp only [check_eq_ok_iff, check_eq_error_iff]
  rfl

end Reading

section Rows

/-- A record of a file with so many columns that is a quote. -/
structure Gives (width : Nat) (fields : List String) (q : Quote) : Prop where
  even : fields.length = width
  shows : Shows fields q

/-- Why the record with a number is no quote: it has another number of fields than the heading, or
its first column that cannot be read. -/
inductive Refused (width number : Nat) (r : Record) : RowFault → Prop
  | uneven (other : r.fields.length ≠ width) :
      Refused width number r (.fieldCount number r.place r.fields.length width)
  | column {fault : RowFault} (even : r.fields.length = width) (first : FirstFault r fault) :
      Refused width number r fault

variable {width number : Nat} {r : Record} {rows : List Record} {given : List Quote}
  {fault : RowFault}

theorem quotesFrom_cons_eq_ok_iff : quotesFrom width number (r :: rows) = .ok given ↔
    ∃ q later, Gives width r.fields q ∧ quotesFrom width (number + 1) rows = .ok later ∧
      given = q :: later := by
  rw [quotesFrom]
  split
  · rename_i other
    constructor
    · intro read
      cases read
    · rintro ⟨q, later, gives, -⟩
      exact absurd gives.even other
  · rename_i even
    simp only [bind_eq_ok_iff, pure_eq_ok, Except.ok.injEq, quote_eq_ok_iff]
    constructor
    · rintro ⟨q, shows, later, read, rfl⟩
      exact ⟨q, later, ⟨not_not.mp even, shows⟩, read, rfl⟩
    · rintro ⟨q, later, gives, read, rfl⟩
      exact ⟨q, gives.shows, later, read, rfl⟩

theorem quotesFrom_cons_eq_error_iff : quotesFrom width number (r :: rows) = .error fault ↔
    Refused width number r fault ∨
      ∃ q, Gives width r.fields q ∧ quotesFrom width (number + 1) rows = .error fault := by
  rw [quotesFrom]
  split
  · rename_i other
    constructor
    · rintro ⟨⟩
      exact .inl (.uneven other)
    · rintro (refused | ⟨q, gives, -⟩)
      · cases refused with
        | uneven => rfl
        | column even => exact absurd even other
      · exact absurd gives.even other
  · rename_i even
    have width_eq := not_not.mp even
    simp only [bind_eq_error_iff, pure_eq_ok, quote_eq_ok_iff, quote_eq_error_iff]
    constructor
    · rintro (first | ⟨q, shows, failed | ⟨_, _, ⟨⟩⟩⟩)
      · exact .inl (.column width_eq first)
      · exact .inr ⟨q, ⟨width_eq, shows⟩, failed⟩
    · rintro (refused | ⟨q, gives, failed⟩)
      · cases refused with
        | uneven other => exact absurd width_eq other
        | column _ first => exact .inl first
      · exact .inr ⟨q, gives.shows, .inl failed⟩

/-- Rows are read if each of them is a quote. -/
theorem quotesFrom_eq_ok_iff : quotesFrom width number rows = .ok given ↔
    List.Forall₂ (fun r q => Gives width r.fields q) rows given := by
  induction rows generalizing number given with
  | nil =>
    constructor
    · rintro ⟨⟩
      exact .nil
    · rintro ⟨⟩
      rfl
  | cons r rest ih =>
    rw [quotesFrom_cons_eq_ok_iff]
    constructor
    · rintro ⟨q, later, gives, read, rfl⟩
      exact .cons gives (ih.mp read)
    · rintro (_ | ⟨gives, others⟩)
      exact ⟨_, _, gives, ih.mpr others, rfl⟩

/-- Otherwise the first row that is none decides the fault. -/
theorem quotesFrom_eq_error_iff : quotesFrom width number rows = .error fault ↔
    ∃ before r after, rows = before ++ r :: after ∧ (∀ x ∈ before, ∃ q, Gives width x.fields q) ∧
      Refused width (number + before.length) r fault := by
  induction rows generalizing number with
  | nil =>
    constructor
    · rintro ⟨⟩
    · rintro ⟨before, r, after, split, -⟩
      exact absurd split.symm (by simp)
  | cons r rest ih =>
    rw [quotesFrom_cons_eq_error_iff]
    constructor
    · rintro (refused | ⟨q, gives, failed⟩)
      · exact ⟨[], r, rest, rfl, List.forall_mem_nil _, refused⟩
      · obtain ⟨before, bad, after, rfl, earlier, refused⟩ := ih.mp failed
        refine ⟨r :: before, bad, after, rfl, List.forall_mem_cons.mpr ⟨⟨q, gives⟩, earlier⟩, ?_⟩
        rwa [List.length_cons, Nat.add_comm before.length, ← Nat.add_assoc]
    · rintro ⟨before, bad, after, split, earlier, refused⟩
      cases before with
      | nil =>
        obtain ⟨rfl, rfl⟩ := List.cons.inj split
        exact .inl refused
      | cons x others =>
        obtain ⟨rfl, rfl⟩ := List.cons.inj split
        obtain ⟨⟨q, gives⟩, later⟩ := List.forall_mem_cons.mp earlier
        refine .inr ⟨q, gives, ih.mpr ⟨others, bad, after, rfl, later, ?_⟩⟩
        rwa [List.length_cons, Nat.add_comm others.length, ← Nat.add_assoc] at refused

end Rows

section Files

variable {rs rs' : List Record} {given : List Quote} {fault : RowFault}

/-- The number of columns that the heading of a file gives it. -/
def widthOf : List Record → Nat
  | [] => 0
  | heading :: _ => heading.fields.length

/-- The records of a file stand for quotes, one for each below the heading. -/
def Stands (rs : List Record) (given : List Quote) : Prop :=
  List.Forall₂ (fun r q => Gives (widthOf rs) r.fields q) rs.tail given

/-- The fault of the first record below the heading that is no quote. -/
def FirstRefused (rs : List Record) (fault : RowFault) : Prop :=
  ∃ before r after, rs.tail = before ++ r :: after ∧
    (∀ x ∈ before, ∃ q, Gives (widthOf rs) x.fields q) ∧
    Refused (widthOf rs) (1 + before.length) r fault

/-- The same heading and the same data rows in some other order, wherever in a text they are. -/
structure Shuffled (rs rs' : List Record) : Prop where
  heading : rs.head?.map Record.fields = rs'.head?.map Record.fields
  rows : (rs.tail.map Record.fields).Perm (rs'.tail.map Record.fields)

theorem quotes_eq_quotesFrom (rs : List Record) :
    quotes rs = quotesFrom (widthOf rs) 1 rs.tail := by
  cases rs <;> rfl

theorem quotes_eq_ok_iff : quotes rs = .ok given ↔ Stands rs given := by
  rw [quotes_eq_quotesFrom, quotesFrom_eq_ok_iff, Stands]

theorem quotes_eq_error_iff : quotes rs = .error fault ↔ FirstRefused rs fault := by
  rw [quotes_eq_quotesFrom, quotesFrom_eq_error_iff, FirstRefused]

theorem Shuffled.widthOf_eq (shuffled : Shuffled rs rs') : widthOf rs = widthOf rs' := by
  have heading := shuffled.heading
  cases rs with
  | nil =>
    cases rs' with
    | nil => rfl
    | cons first rest => cases heading
  | cons first rest =>
    cases rs' with
    | nil => cases heading
    | cons first' rest' => exact congrArg List.length (Option.some.inj heading)

/-- Shuffled rows give the quotes in another order. -/
theorem Stands.shuffled (stands : Stands rs given) (shuffled : Shuffled rs rs') :
    ∃ other, Stands rs' other ∧ given.Perm other := by
  have rows : List.Forall₂ (Gives (widthOf rs)) (rs.tail.map Record.fields) given :=
    List.forall₂_map_left_iff.mpr stands
  obtain ⟨other, moved, same⟩ := List.perm_comp_forall₂ shuffled.rows.symm rows
  rw [shuffled.widthOf_eq] at moved
  exact ⟨other, List.forall₂_map_left_iff.mp moved, same.symm⟩

end Files

section Loading

variable {path symbol : String} {content : ByteArray}

/-- What loading a file with some content can come to. Loading it is all or nothing: the content is
text and each record of it below the heading is a quote, or there is one fault and no asset. -/
structure Loads (path symbol : String) (content : ByteArray) (loaded : Except DataFault Asset) :
    Prop where
  accepted : ∀ a, loaded = .ok a ↔ ∃ text given, String.fromUTF8? content = some text ∧
    Stands (records text) given ∧ a = .ofQuotes symbol given
  refused : ∀ fault, loaded = .error fault ↔
    (String.fromUTF8? content = none ∧ fault = .unreadable
      ("failed to read " ++ path ++ ": " ++ DiskFault.notUtf8.message)) ∨
    ∃ text cause, String.fromUTF8? content = some text ∧
      FirstRefused (records text) cause ∧ fault = .unreadable (cause.message path)

theorem assetOf_eq_ok_iff {text : String} {a : Asset} : assetOf path symbol (.ok text) = .ok a ↔
    ∃ given, Stands (records text) given ∧ a = .ofQuotes symbol given := by
  simp only [assetOf, readAsset, ← quotes_eq_ok_iff]
  cases quotes (records text) with
  | ok given => simp [Except.map, eq_comm]
  | error cause => simp [Except.map]

theorem assetOf_eq_error_iff {text : String} {fault : DataFault} :
    assetOf path symbol (.ok text) = .error fault ↔
      ∃ cause, FirstRefused (records text) cause ∧ fault = .unreadable (cause.message path) := by
  simp only [assetOf, readAsset, ← quotes_eq_error_iff]
  cases quotes (records text) with
  | ok given => simp [Except.map]
  | error cause => simp [Except.map, eq_comm]

theorem loads_of_text {text : String} (decoded : String.fromUTF8? content = some text) :
    Loads path symbol content (assetOf path symbol (.ok text)) := by
  constructor
  · intro a
    rw [assetOf_eq_ok_iff]
    simp [decoded]
  · intro fault
    rw [assetOf_eq_error_iff]
    simp [decoded]

theorem loads_of_bytes (undecoded : String.fromUTF8? content = none) :
    Loads path symbol content (assetOf path symbol (.error .notUtf8)) := by
  constructor
  · intro a
    simp [assetOf, undecoded]
  · intro fault
    simp [assetOf, undecoded, eq_comm]

variable {root : FileTree} {directory : String}

theorem loadAsset_loads (file : root.at? (filePath directory symbol) = .ok (.file content)) :
    Loads (filePath directory symbol) symbol content
      (loadAsset root.disk directory symbol).run := by
  change Loads _ _ _ (assetOf _ symbol (root.read (filePath directory symbol)))
  cases decoded : String.fromUTF8? content with
  | none =>
    simp only [FileTree.read, file, decoded]
    exact loads_of_bytes decoded
  | some text =>
    simp only [FileTree.read, file, decoded]
    exact loads_of_text decoded

theorem Loads.shuffled {path' : String} {content' : ByteArray} {text text' : String} {a : Asset}
    {loaded loaded' : Except DataFault Asset} (loads : Loads path symbol content loaded)
    (loads' : Loads path' symbol content' loaded')
    (decoded : String.fromUTF8? content = some text)
    (decoded' : String.fromUTF8? content' = some text')
    (shuffled : Shuffled (records text) (records text')) (accepted : loaded = .ok a)
    (distinct : (a.history.map Quote.time).Nodup) : loaded' = .ok a := by
  obtain ⟨text₀, given, decoded₀, stands, rfl⟩ := (loads.accepted a).mp accepted
  obtain rfl := Option.some.inj (decoded.symm.trans decoded₀)
  have apart : (given.map Quote.time).Nodup :=
    ((newestFirst_perm given).map Quote.time).nodup_iff.mp distinct
  obtain ⟨other, stands', same⟩ := stands.shuffled shuffled
  have reordered : Reordered given other := .of_distinct same apart
  rw [Asset.ofQuotes_of_reordered symbol reordered]
  exact (loads'.accepted _).mpr ⟨text', other, decoded', stands', rfl⟩

/-- Whatever a file holds, loading it is all or nothing. If each record below the heading is a
quote, the asset is made of them, one for each record and sorted by time; otherwise the first record
that is none and its first column that cannot be read decide the fault, which tells the line and the
column. The same rows in another order make the same asset if no two of them share a time. -/
theorem loadAsset_all_or_nothing
    (file : root.at? (filePath directory symbol) = .ok (.file content)) :
    let loaded := (loadAsset root.disk directory symbol).run
    Loads (filePath directory symbol) symbol content loaded ∧
    (∀ rs given, Stands rs given → (Asset.ofQuotes symbol given).symbol = symbol ∧
      (Asset.ofQuotes symbol given).length = rs.tail.length ∧
      (Asset.ofQuotes symbol given).Addresses given) ∧
    (∀ c : Column, columns[c.index]? = some c) ∧
    (∀ r c fault, Faulty r c fault → ∀ path, ∃ problem more,
      (problem = ": missing " ∨ problem = ": invalid ") ∧
      fault.message path = "line " ++ toString r.place.line ++ problem ++ c.name ++ more) ∧
    ∀ (root' : FileTree) (directory' : String) (content' : ByteArray) (text text' : String),
      root'.at? (filePath directory' symbol) = .ok (.file content') →
      String.fromUTF8? content = some text → String.fromUTF8? content' = some text' →
      Shuffled (records text) (records text') → ∀ a, loaded = .ok a →
      (a.history.map Quote.time).Nodup →
      (loadAsset root'.disk directory' symbol).run = .ok a := by
  intro loaded
  have loads := loadAsset_loads file
  refine ⟨loads, ?_, columns_at, fun r c fault faulty => faulty.message, ?_⟩
  · intro rs given stands
    refine ⟨rfl, ?_, Asset.ofQuotes_addresses symbol given⟩
    rw [← Asset.length_history, stands.length_eq]
    exact (newestFirst_perm given).length_eq
  · intro root' directory' content' text text' file' decoded decoded' shuffled a accepted distinct
    exact loads.shuffled (loadAsset_loads file') decoded decoded' shuffled accepted distinct

/-- Two days of quotes, the older one first and last. -/
theorem loadAsset_all_or_nothing_two_days :
    let heading := "date,open,high,low,close,volume\n"
    let first := "2024-01-01,10,11,9,10,1000\n"
    let second := "2024-01-02 16:00:00,10, 12 ,9,11,2000\n"
    let holds (text : String) : FileTree := .directory [("X.csv", .file text.toUTF8)]
    let early : Quote := ⟨⟨2024, 1, 1, 0, 0, 0, by decide, by decide, by decide, by decide,
      by decide, by decide⟩, 10.0, 11.0, 9.0, 10.0, 1000⟩
    let late : Quote := ⟨⟨2024, 1, 2, 16, 0, 0, by decide, by decide, by decide, by decide,
      by decide, by decide⟩, 10.0, 12.0, 9.0, 11.0, 2000⟩
    let a := Asset.ofQuotes "X" [early, late]
    (loadAsset (holds (heading ++ first ++ second)).disk "." "X").run = .ok a ∧
      (loadAsset (holds (heading ++ second ++ first)).disk "." "X").run = .ok a := by
  intro heading first second holds early late a
  have file (text : String) : (holds text).at? (filePath "." "X") = .ok (.file text.toUTF8) := by
    have path : filePath "." "X" = "./X.csv" := rfl
    have free : ("./X.csv").contains '\x00' = false := String.contains_char_eq
    rw [path, FileTree.at?, free]
    rfl
  have decoded (text : String) : String.fromUTF8? text.toUTF8 = some text := by
    rw [String.fromUTF8?, String.toUTF8_eq_toByteArray, dif_pos text.isValidUTF8]
    rfl
  have split : records (heading ++ first ++ second) =
      [⟨.start, ["date", "open", "high", "low", "close", "volume"]⟩,
        ⟨⟨32, 1⟩, ["2024-01-01", "10", "11", "9", "10", "1000"]⟩,
        ⟨⟨59, 2⟩, ["2024-01-02 16:00:00", "10", " 12 ", "9", "11", "2000"]⟩] := by decide +kernel
  have split' : records (heading ++ second ++ first) =
      [⟨.start, ["date", "open", "high", "low", "close", "volume"]⟩,
        ⟨⟨32, 1⟩, ["2024-01-02 16:00:00", "10", " 12 ", "9", "11", "2000"]⟩,
        ⟨⟨70, 2⟩, ["2024-01-01", "10", "11", "9", "10", "1000"]⟩] := by decide +kernel
  have stands : Stands (records (heading ++ first ++ second)) [early, late] := by
    rw [split]
    refine .cons ⟨rfl, ?_⟩ (.cons ⟨rfl, ?_⟩ .nil)
    · exact ⟨⟨_, rfl, rfl⟩, ⟨_, rfl, rfl⟩, ⟨_, rfl, rfl⟩, ⟨_, rfl, rfl⟩, ⟨_, rfl, rfl⟩,
        ⟨_, rfl, rfl⟩⟩
    · exact ⟨⟨_, rfl, rfl⟩, ⟨_, rfl, rfl⟩, ⟨_, rfl, rfl⟩, ⟨_, rfl, rfl⟩, ⟨_, rfl, rfl⟩,
        ⟨_, rfl, rfl⟩⟩
  have shuffled : Shuffled (records (heading ++ first ++ second))
      (records (heading ++ second ++ first)) := by
    rw [split, split']
    exact ⟨rfl, .swap _ _ []⟩
  have distinct : (a.history.map Quote.time).Nodup := by decide
  obtain ⟨loads, -, -, -, alike⟩ := loadAsset_all_or_nothing (file (heading ++ first ++ second))
  have accepted := (loads.accepted a).mpr ⟨_, _, decoded _, stands, rfl⟩
  exact ⟨accepted,
    alike _ _ _ _ _ (file _) (decoded _) (decoded _) shuffled a accepted distinct⟩

end Loading

end TradingRules.Csv
