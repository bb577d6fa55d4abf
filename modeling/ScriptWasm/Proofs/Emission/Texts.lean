import ScriptWasm.Proofs.Emission.Description
import Mathlib.Data.List.Pairwise

/-!
# Where texts lie

Code refers to a text by an address and a length, which are given out when the text is first asked
for and are part of the code from then on. So they have to stay right while further texts are added
behind. They do: a text that is known is not added again, a new one is added at the end, and nothing
is ever moved. The bytes of the segment are those of the different texts in the order in which they
were first asked for, and every place that was given out is the place of its text among them.

Memory is as large as that takes, in whole pages, and no larger.
-/

namespace ScriptWasm

open Wasm

/-! ## Places -/

namespace Extent

/-- The first address behind a place. -/
def stop (e : Extent) : Nat := e.start + e.length

/-- Two places have no byte in common. -/
def Apart (e e' : Extent) : Prop := e.stop ≤ e'.start ∨ e'.stop ≤ e.start

end Extent

namespace Tables

variable {t t' : Tables} {records : List TextEntry}

namespace LaidOut

variable {start : Nat} {texts : List TextEntry}

/-- The bytes in front of a text are those that its address counts. -/
theorem split (h : LaidOut start texts) {e : TextEntry} (he : e ∈ texts) :
    ∃ before after, (texts.flatMap fun e ↦ bytesOf e.text) = before ++ (bytesOf e.text ++ after) ∧
      e.extent = ⟨start + before.length, (bytesOf e.text).length⟩ := by
  induction texts generalizing start with
  | nil => cases he
  | cons first rest ih =>
    rw [List.flatMap_cons]
    cases he with
    | head => exact ⟨[], _, rfl, h.1⟩
    | tail _ he =>
      obtain ⟨before, after, hbytes, hextent⟩ := ih h.2 he
      refine ⟨bytesOf first.text ++ before, after, ?_, ?_⟩
      · rw [hbytes, List.append_assoc]
      · rw [hextent, List.length_append, Nat.add_assoc]

/-- A text lies behind all texts that were there before it. -/
theorem pairwise_stop_le (h : LaidOut start texts) :
    texts.Pairwise fun e e' ↦ e.extent.stop ≤ e'.extent.start := by
  induction texts generalizing start with
  | nil => exact .nil
  | cons first rest ih =>
    refine .cons (fun e he ↦ ?_) (ih h.2)
    rw [h.1]
    exact (h.2.getElem?_data he).1

theorem apart (h : LaidOut start texts) {e e' : TextEntry} (he : e ∈ texts) (he' : e' ∈ texts)
    (hne : e ≠ e') : e.extent.Apart e'.extent := by
  have hsymm : Std.Symm fun e e' : TextEntry ↦ e.extent.Apart e'.extent := ⟨fun _ _ ↦ Or.symm⟩
  have hpairwise : texts.Pairwise fun e e' ↦ e.extent.Apart e'.extent :=
    h.pairwise_stop_le.imp Or.inl
  exact hpairwise.forall he he' hne

end LaidOut

/-! ## Asking for texts -/

/-- Tables that come out of what is done to new ones step by step. A step asks for a text, or does
something that the texts are not concerned with. The records are the texts that were asked for, in
order and with repetitions, each with the place that was given for it. -/
inductive Recorded : List TextEntry → Tables → Prop
  | start (operators : Bindings) : Recorded [] (start operators)
  | text {records : List TextEntry} {t t' : Tables} {text : String} {e : Extent}
      (before : Recorded records t) (asked : t.addText text = .ok (e, t')) :
      Recorded (records ++ [⟨text, e⟩]) t'
  | other {records : List TextEntry} {t t' : Tables} (before : Recorded records t)
      (same : t'.texts = t.texts) : Recorded records t'

/-- The texts of tables are those that were asked for, and are found where they were said to lie. -/
structure Holds (t : Tables) (records : List TextEntry) : Prop where
  placed : t.PlacesTexts
  texts : t.texts.map TextEntry.text = (records.map TextEntry.text).eraseDups
  found : ∀ r ∈ records, t.textExtent? r.text = some r.extent

/-- Where texts lie is a matter of the texts alone. -/
theorem textExtent?_congr (h : t'.texts = t.texts) (text : String) :
    t'.textExtent? text = t.textExtent? text := by
  rw [textExtent?, textExtent?, h]

/-- A text that has been asked for is found at the place that was given. -/
theorem textExtent?_of_addText {text : String} {e : Extent} (h : t.addText text = .ok (e, t')) :
    t'.textExtent? text = some e := by
  obtain ⟨e', he, heq⟩ | ⟨hnew, -, -, heq⟩ := addText_eq_ok_iff.mp h
  · obtain ⟨rfl, rfl⟩ := Prod.mk.inj heq
    exact he
  · obtain ⟨rfl, rfl⟩ := Prod.mk.inj heq
    rw [textExtent?, Option.map_eq_none_iff] at hnew
    rw [textExtent?, List.find?_append, hnew, Option.none_or, List.find?_cons_of_pos (by simp)]
    rfl

namespace Holds

theorem congr (ht : t.Holds records) (h : t'.texts = t.texts) : t'.Holds records where
  placed := ⟨h ▸ ht.placed.laidOut, h ▸ ht.placed.start, h ▸ ht.placed.length⟩
  texts := h ▸ ht.texts
  found r hr := (textExtent?_congr h r.text).trans (ht.found r hr)

theorem mem_map_text_iff (ht : t.Holds records) {text : String} :
    text ∈ t.texts.map TextEntry.text ↔ text ∈ records.map TextEntry.text := by
  rw [ht.texts, List.mem_eraseDups]

/-- A text is known exactly if it was asked for, and then it lies where it was said to lie. -/
theorem textExtent?_eq_some_iff (ht : t.Holds records) {text : String} {e : Extent} :
    t.textExtent? text = some e ↔ ⟨text, e⟩ ∈ records := by
  refine ⟨fun he ↦ ?_, fun hmem ↦ ht.found _ hmem⟩
  have hknown : text ∈ t.texts.map TextEntry.text := by
    rw [← not_not (a := text ∈ _), ← textExtent?_eq_none_iff, he]
    exact Option.some_ne_none e
  obtain ⟨r, hr, rfl⟩ := List.mem_map.mp (ht.mem_map_text_iff.mp hknown)
  obtain rfl : r.extent = e := Option.some.inj ((ht.found r hr).symm.trans he)
  exact hr

/-- What was given out is an entry of the table. -/
theorem mem_texts (ht : t.Holds records) {r : TextEntry} (hr : r ∈ records) : r ∈ t.texts := by
  obtain ⟨entry, hentry, hextent⟩ := Option.map_eq_some_iff.mp (ht.found r hr)
  have htext : entry.text = r.text := by simpa using List.find?_some hentry
  obtain rfl : entry = r := by
    cases entry
    cases r
    cases htext
    cases hextent
    rfl
  exact List.mem_of_find?_eq_some hentry

/-- A text that is asked for is where it is known to be, or it comes behind all others. -/
theorem addText (ht : t.Holds records) {text : String} {e : Extent}
    (h : t.addText text = .ok (e, t')) : t'.Holds (records ++ [⟨text, e⟩]) := by
  have hmeets : Meets (t, .entry) (.text text) (t', .entry) := by
    refine meets_of_meet ?_
    rw [meet, h]
    rfl
  have hkept : ∀ r ∈ records, t'.textExtent? r.text = some r.extent :=
    fun r hr ↦ hmeets.extends.textExtent? (ht.found r hr)
  refine ⟨ht.placed.meet hmeets, ?_, List.forall_mem_append.mpr
    ⟨hkept, List.forall_mem_singleton.mpr (textExtent?_of_addText h)⟩⟩
  rw [List.map_append, List.map_singleton]
  obtain ⟨e', he, heq⟩ | ⟨hnew, -, -, heq⟩ := addText_eq_ok_iff.mp h
  · have hmem : text ∈ records.map TextEntry.text :=
      List.mem_map_of_mem (ht.textExtent?_eq_some_iff.mp he)
    rw [eraseDups_concat_of_mem hmem, ← ht.texts, ← (Prod.mk.inj heq).2]
  · have hnotMem := mt ht.mem_map_text_iff.mpr (textExtent?_eq_none_iff.mp hnew)
    rw [eraseDups_concat_of_notMem hnotMem, ← ht.texts, ← (Prod.mk.inj heq).2, List.map_append]
    rfl

end Holds

theorem IsBlank.holds (ht : t.IsBlank) : t.Holds [] := by
  have htexts := ht.texts
  refine ⟨⟨htexts ▸ trivial, htexts ▸ nofun, htexts ▸ nofun⟩, ?_, nofun⟩
  rw [htexts]
  rfl

theorem Recorded.holds (h : Recorded records t) : t.Holds records := by
  induction h with
  | start operators => exact (isBlank_start operators).holds
  | text _ asked ih => exact ih.addText asked
  | other _ same ih => exact ih.congr same

/-! ## Memory -/

theorem memories_layout {codes : List Code} {metadata : Metadata} :
    (t.layout codes metadata).memories = [⟨⟨t.pages, none, false⟩, false⟩] := by
  rw [Module.memories, flatMap_layout (fun _ _ ↦ rfl) (fun _ ↦ rfl) fun _ ↦ rfl]
  rfl

theorem PlacesTexts.dataSize_eq (ht : t.PlacesTexts) : t.dataSize = t.data.length :=
  ht.laidOut.dataSize_eq

/-- A number of pages is enough for all texts exactly if it is not smaller than the one that is
taken. -/
theorem PlacesTexts.pages_le_iff (ht : t.PlacesTexts) {n : Nat} :
    t.pages ≤ n ↔ dataStart + t.data.length ≤ n * pageSize := by
  rw [pages, ht.dataSize_eq, dataStart, pageSize]
  omega

/-! ## Places that stay right -/

/-- What can be relied on after texts have been asked for. -/
structure KeepsTexts (t : Tables) (records : List TextEntry) : Prop where
  /-- The different texts lie one after the other, in the order in which they were first asked
  for. -/
  data : t.data = (records.map TextEntry.text).eraseDups.flatMap bytesOf
  /-- A place that was given out has the length and holds the bytes of its text. -/
  bytes : ∀ r ∈ records, dataStart ≤ r.extent.start ∧
    r.extent.length = (bytesOf r.text).length ∧
    (t.data.drop (r.extent.start - dataStart)).take r.extent.length = bytesOf r.text
  /-- Places of different texts have no byte in common. -/
  apart : ∀ r ∈ records, ∀ r' ∈ records, r.text ≠ r'.text → r.extent.Apart r'.extent
  /-- The texts that are known are those that were asked for. -/
  known : ∀ text e, t.textExtent? text = some e ↔ ⟨text, e⟩ ∈ records
  /-- To ask for a text that is known changes nothing and gives the same place. -/
  again : ∀ r ∈ records, t.addText r.text = .ok (r.extent, t)
  /-- A module with these tables has the least number of pages that holds the texts. Each of them
  lies within, and is put where it should be. -/
  memory : ∀ codes metadata, ∃ n,
    (t.layout codes metadata).memories = [⟨⟨n, none, false⟩, false⟩] ∧
    (∀ k, n ≤ k ↔ dataStart + t.data.length ≤ k * pageSize) ∧
    ∀ r ∈ records, r.extent.stop ≤ n * pageSize ∧
      (t.layout codes metadata).HoldsText r.text r.extent

theorem Holds.keepsTexts (ht : t.Holds records) : t.KeepsTexts records := by
  have hsplit {r : TextEntry} (hr : r ∈ records) := ht.placed.laidOut.split (ht.mem_texts hr)
  refine ⟨?_, fun r hr ↦ ?_, fun r hr r' hr' hne ↦ ?_, fun _ _ ↦ ht.textExtent?_eq_some_iff,
    fun r hr ↦ ?_, fun codes metadata ↦ ⟨t.pages, memories_layout, fun _ ↦ ht.placed.pages_le_iff,
      fun r hr ↦ ⟨?_, ht.placed.holdsText (ht.found r hr)⟩⟩⟩
  · rw [← ht.texts, List.flatMap_map]
    rfl
  · obtain ⟨before, after, hdata, hextent⟩ := hsplit hr
    rw [hextent, data, hdata]
    refine ⟨Nat.le_add_right _ _, rfl, ?_⟩
    rw [Nat.add_sub_cancel_left, List.drop_left, List.take_left]
  · exact ht.placed.laidOut.apart (ht.mem_texts hr) (ht.mem_texts hr') fun h ↦ hne (h ▸ rfl)
  · exact addText_eq_ok_iff.mpr (.inl ⟨_, ht.found r hr, rfl⟩)
  · obtain ⟨before, after, hdata, hextent⟩ := hsplit hr
    have henough := ht.placed.pages_le_iff.mp (Nat.le_refl t.pages)
    rw [data, hdata, List.length_append, List.length_append] at henough
    rw [Extent.stop, hextent]
    dsimp only
    omega

end Tables

/-! ## The texts of a program -/

mutual

/-- The texts in an expression, in the order in which they are written. -/
def Expr.literals : Expr → List String
  | .text text => [text]
  | .number _ => []
  | .variable _ => []
  | .index _ indices => exprsLiterals indices
  | .property _ _ => []
  | .call _ _ args => exprsLiterals args
  | .binary _ left right => left.literals ++ right.literals
  | .negate operand => operand.literals

def exprsLiterals : List Expr → List String
  | [] => []
  | e :: rest => e.literals ++ exprsLiterals rest

end

/-- The texts in an assignment. The handler of an event is a name and not a text. -/
def Target.literals (value : Expr) : Target → List String
  | .variable _ => value.literals
  | .index _ indices => exprsLiterals indices ++ value.literals
  | .property _ _ => value.literals
  | .event _ _ => []

mutual

/-- The texts in a statement, in the order in which they are written. -/
def Stmt.literals : Stmt → List String
  | .assign target value _ => target.literals value
  | .call _ _ args _ => exprsLiterals args
  | .cond condition body arms otherwise _ =>
    condition.literals ++ stmtsLiterals body ++ armsLiterals arms ++ stmtsLiterals otherwise
  | .while condition body _ => condition.literals ++ stmtsLiterals body
  | .for _ start stop step body _ =>
    start.literals ++ stop.literals ++ exprsLiterals step.toList ++ stmtsLiterals body
  | .sub _ body _ => stmtsLiterals body
  | .label _ _ => []
  | .goto _ _ => []
  | .callSub _ _ => []
  | .empty _ => []

def stmtsLiterals : List Stmt → List String
  | [] => []
  | s :: rest => s.literals ++ stmtsLiterals rest

def armsLiterals : List Arm → List String
  | [] => []
  | .mk condition body :: rest =>
    condition.literals ++ stmtsLiterals body ++ armsLiterals rest

end

/-- The texts in a program, in the order in which they are written and with repetitions. -/
def Program.literals (p : Program) : List String := stmtsLiterals p.body

/-- The text that a demand asks for. -/
def Demand.text? : Demand → Option String
  | .text contents => some contents
  | _ => none

namespace Registry

variable {r : Registry}

/-- Functions are not texts. -/
theorem texts_functionDemands {α : Type} (members : List α) (source : α → ImportRef)
    (type : α → FuncType) :
    (members.map fun m ↦ .function (source m) (type m)).filterMap Demand.text? = [] := by
  simp [Demand.text?]

mutual

theorem texts_exprDemands (e : Expr) : (r.exprDemands e).filterMap Demand.text? = e.literals := by
  match e with
  | .text text => rfl
  | .number x => rfl
  | .variable name => rfl
  | .index array indices => rw [exprDemands, Expr.literals, texts_exprsDemands indices]
  | .property type name => exact texts_functionDemands _ _ _
  | .call type method args =>
    rw [exprDemands, List.filterMap_append, callDemands, texts_functionDemands, List.nil_append,
      Expr.literals, texts_exprsDemands args]
  | .binary op left right =>
    rw [exprDemands, List.filterMap_append, texts_exprDemands left, texts_exprDemands right,
      Expr.literals]
  | .negate operand => rw [exprDemands, Expr.literals, texts_exprDemands operand]

theorem texts_exprsDemands (es : List Expr) :
    (r.exprsDemands es).filterMap Demand.text? = exprsLiterals es := by
  match es with
  | [] => rfl
  | e :: rest =>
    rw [exprsDemands, List.filterMap_append, texts_exprDemands e, texts_exprsDemands rest,
      exprsLiterals]

end

theorem texts_assignDemands (value : Expr) (target : Target) :
    (r.assignDemands value target).filterMap Demand.text? = target.literals value := by
  match target with
  | .variable name => exact texts_exprDemands value
  | .index array indices =>
    rw [assignDemands, List.filterMap_append, texts_exprsDemands, texts_exprDemands,
      Target.literals]
  | .property type name =>
    rw [assignDemands, List.filterMap_append, setterDemands, texts_functionDemands,
      texts_exprDemands, List.nil_append, Target.literals]
  | .event type name => exact texts_functionDemands _ _ _

mutual

theorem texts_stmtDemands (s : Stmt) : (r.stmtDemands s).filterMap Demand.text? = s.literals := by
  match s with
  | .assign target value span => exact texts_assignDemands value target
  | .call type method args span =>
    rw [stmtDemands, List.filterMap_append, callDemands, texts_functionDemands,
      texts_exprsDemands, List.nil_append, Stmt.literals]
  | .cond condition body arms otherwise span =>
    simp only [stmtDemands, List.filterMap_append, texts_exprDemands, texts_stmtsDemands body,
      texts_armsDemands arms, texts_stmtsDemands otherwise, Stmt.literals]
  | .while condition body span =>
    rw [stmtDemands, List.filterMap_append, texts_exprDemands, texts_stmtsDemands body,
      Stmt.literals]
  | .for name start stop step body span =>
    simp only [stmtDemands, List.filterMap_append, texts_exprDemands, texts_exprsDemands,
      texts_stmtsDemands body, Stmt.literals]
  | .sub name body span =>
    rw [stmtDemands, List.cons_append, List.filterMap_cons_none rfl, List.filterMap_append,
      texts_stmtsDemands body, List.filterMap_cons_none rfl, List.filterMap_nil, List.append_nil,
      Stmt.literals]
  | .label .. => rfl
  | .goto .. => rfl
  | .callSub .. => rfl
  | .empty .. => rfl

theorem texts_stmtsDemands (body : List Stmt) :
    (r.stmtsDemands body).filterMap Demand.text? = stmtsLiterals body := by
  match body with
  | [] => rfl
  | s :: rest =>
    rw [stmtsDemands, List.filterMap_append, texts_stmtDemands s, texts_stmtsDemands rest,
      stmtsLiterals]

theorem texts_armsDemands (arms : List Arm) :
    (r.armsDemands arms).filterMap Demand.text? = armsLiterals arms := by
  match arms with
  | [] => rfl
  | .mk condition body :: rest =>
    simp only [armsDemands, List.filterMap_append, texts_exprDemands, texts_stmtsDemands body,
      texts_armsDemands rest, armsLiterals]

end

end Registry

namespace Tables

variable {t : Tables}

/-- A demand for a text asks for it, and other demands leave the texts alone. -/
theorem Recorded.meet {records : List TextEntry} {q q' : Tables × Routine} {d : Demand}
    (hq : Recorded records q.1) (h : meet q d = .ok q') :
    ∃ more, Recorded (records ++ more) q'.1 ∧ more.map TextEntry.text = d.text?.toList := by
  have hother (hsame : q'.1.texts = q.1.texts) (hd : d.text? = none) :
      ∃ more, Recorded (records ++ more) q'.1 ∧ more.map TextEntry.text = d.text?.toList :=
    ⟨[], (List.append_nil records).symm ▸ hq.other hsame, by rw [hd]; rfl⟩
  cases d with
  | text contents =>
    obtain ⟨t, routine⟩ := q
    rw [Tables.meet, bind_eq_ok_iff] at h
    obtain ⟨⟨e, t'⟩, hasked, h⟩ := h
    obtain rfl := pure_eq_ok_iff.mp h
    exact ⟨[⟨contents, e⟩], hq.text hasked, rfl⟩
  | function source type => cases meets_of_meet h <;> exact hother rfl rfl
  | label name => cases meets_of_meet h; exact hother rfl rfl
  | enter name => cases meets_of_meet h; exact hother rfl rfl
  | leave => cases meets_of_meet h; exact hother rfl rfl

/-- The walk over a program asks for its texts in the order in which they are written. -/
theorem exists_recorded_of_ofProgram {h : Host} {p : Program} (ht : ofProgram h p = .ok t) :
    ∃ records, Recorded records t ∧ records.map TextEntry.text = p.literals := by
  obtain ⟨-, -, hm⟩ := ofProgram_eq_ok_iff.mp ht
  have hslots {t : Tables} (ht : Recorded [] t) : Recorded [] (t.withSlots p.symbols.names) :=
    ht.other rfl
  have hall := meetAll_collects
    (fun texts t ↦ ∃ records, Recorded records t ∧ records.map TextEntry.text = texts) Demand.text?
    (fun {texts q d q'} hq hd ↦ by
      obtain ⟨records, hrecords, rfl⟩ := hq
      obtain ⟨more, hmore, hmap⟩ := hrecords.meet hd
      exact ⟨records ++ more, hmore, by rw [List.map_append, hmap]⟩)
    ⟨[], hslots (.start h.operators), rfl⟩ hm
  rwa [Registry.texts_stmtsDemands] at hall

/-- **Texts stay where they were placed**, whatever texts are asked for and whatever else is done
in between. The walk over a program is a case of this: it asks for the texts of the program in the
order in which they are written, and its module is laid out from the tables that it leaves. -/
theorem recorded_keepsTexts :
    (∀ {records : List TextEntry} {t : Tables}, Recorded records t → t.KeepsTexts records) ∧
      ∀ {h : Host} {p : Program} {t : Tables}, ofProgram h p = .ok t →
        ∃ records, Recorded records t ∧ records.map TextEntry.text = p.literals ∧
          ∀ source md, h.module p source = .ok md → ∃ codes metadata,
            md = t.layout codes metadata := by
  refine ⟨fun hrecorded ↦ hrecorded.holds.keepsTexts, fun {h p t} ht ↦ ?_⟩
  obtain ⟨records, hrecords, hliterals⟩ := exists_recorded_of_ofProgram ht
  refine ⟨records, hrecords, hliterals, fun source md hmodule ↦ ?_⟩
  obtain ⟨t', codes, ht', -, rfl⟩ := Host.module_eq_ok_iff.mp hmodule
  obtain rfl : t = t' := Except.ok.inj (ht.symm.trans ht')
  exact ⟨codes, _, rfl⟩

end Tables

/-- A program with an empty text, texts that are parts of others, and texts that occur again. -/
def Program.reciting : Program where
  symbols := ⟨["x"]⟩
  body :=
    [.assign (.variable "x") (.binary .add (.text "") (.text "é")) default,
      .sub "again" [.assign (.variable "x") (.binary .add (.text "aé") (.text "é")) default]
        default,
      .assign (.variable "x") (.binary .add (.text "a") (.text "")) default]

theorem Program.reciting_keepsTexts : ∃ t records, Tables.ofProgram .console reciting = .ok t ∧
    t.KeepsTexts records ∧ records.map TextEntry.text = ["", "é", "aé", "é", "a", ""] ∧
    t.data = bytesOf "éaéa" ∧ ⟨"a", ⟨21, 1⟩⟩ ∈ records := by
  obtain ⟨t, ht⟩ : ∃ t, Tables.ofProgram .console reciting = .ok t := ⟨_, rfl⟩
  obtain ⟨records, hrecorded, hliterals, -⟩ := Tables.recorded_keepsTexts.2 ht
  have hkeeps := Tables.recorded_keepsTexts.1 hrecorded
  refine ⟨t, records, ht, hkeeps, hliterals, ?_, ?_⟩
  · have hdifferent : reciting.literals.eraseDups = ["", "é", "aé", "a"] := by decide
    rw [hkeeps.data, hliterals, hdifferent]
    simp only [List.flatMap_cons, List.flatMap_nil, bytesOf_eq_flatMap]
    decide
  · rw [← hkeeps.known, ← Except.ok.inj ht]
    rfl

end ScriptWasm
