import ScriptWasm.Files.Path
import ScriptWasm.Proofs.Text.Pieces

/-!
# A name behind a path

A directory shows names, and a name behind the path of the directory makes a path whose last
component is the name. This holds for what can be a name at all: not nothing, not one or two dots,
and without a slash.
-/

namespace ScriptWasm

namespace Path

/-- What can be the name of a file or a directory. -/
structure IsName (name : String) : Prop where
  ne_empty : name ≠ ""
  ne_current : name ≠ "."
  ne_parent : name ≠ ".."
  slash_notMem : '/' ∉ name.toList

instance (name : String) : Decidable (IsName name) :=
  decidable_of_iff (name ≠ "" ∧ name ≠ "." ∧ name ≠ ".." ∧ '/' ∉ name.toList)
    ⟨fun ⟨h₁, h₂, h₃, h₄⟩ ↦ ⟨h₁, h₂, h₃, h₄⟩, fun ⟨h₁, h₂, h₃, h₄⟩ ↦ ⟨h₁, h₂, h₃, h₄⟩⟩

namespace IsName

variable {n : String}

theorem not_isAbsolute (h : IsName n) : (Path.mk n).isAbsolute = false := by
  refine decide_eq_false fun hhead ↦ h.slash_notMem ?_
  exact List.mem_of_mem_head? hhead

theorem names_mk (h : IsName n) : (Path.mk n).names = [n] := by
  rw [names, Text.split_of_notMem h.slash_notMem, List.map_singleton, String.ofList_toList]

/-- The names of a path with a name behind it. A slash at the end of the path makes no
difference. -/
theorem names_join (h : IsName n) {p : Path} (hp : p.text ≠ "") :
    ∃ ns, (p.join n).names = ns ++ [n] ∧ (p.names = ns ∨ p.names = ns ++ [""]) := by
  rw [join, if_neg (by simp [h.not_isAbsolute])]
  by_cases hslash : p.text.toList.getLast? = some '/'
  · obtain ⟨cs, hcs⟩ := List.getLast?_eq_some_iff.mp hslash
    refine ⟨(Text.split '/' cs).map String.ofList, ?_, .inr ?_⟩
    · rw [if_pos (by simp [hslash]), names, String.toList_append, hcs, List.append_assoc,
        List.singleton_append, Text.split_append, List.map_append,
        Text.split_of_notMem h.slash_notMem, List.map_singleton, String.ofList_toList]
    · rw [names, hcs, Text.split_append, List.map_append]
      rfl
  · refine ⟨p.names, ?_, .inl rfl⟩
    rw [if_neg (by simp [hslash, hp]), names, String.toList_append, String.toList_append,
      List.append_assoc]
    have hsplit : Text.split '/' (p.text.toList ++ '/' :: n.toList) = _ := Text.split_append _ _
    rw [Text.split_of_notMem h.slash_notMem] at hsplit
    rw [show ("/" : String).toList ++ n.toList = '/' :: n.toList from rfl, hsplit, List.map_append,
      List.map_singleton, String.ofList_toList, names]

theorem text_join_ne_empty (h : IsName n) (p : Path) : (p.join n).text ≠ "" := by
  rw [join, if_neg (by simp [h.not_isAbsolute])]
  split
  · simp [h.ne_empty]
  · simp [h.ne_empty]

theorem isAbsolute_join (h : IsName n) {p : Path} (hp : p.text ≠ "") :
    (p.join n).isAbsolute = p.isAbsolute := by
  obtain ⟨c, cs, hcs⟩ := List.exists_cons_of_ne_nil (l := p.text.toList) (by simpa using hp)
  rw [join, if_neg (by simp [h.not_isAbsolute])]
  split
  · simp [isAbsolute, hcs]
  · simp [isAbsolute, hcs]

theorem fileName?_of_names (h : IsName n) {p : Path} (ns : List String)
    (hp : p.names = ns ++ [n]) : p.fileName? = some n := by
  have hrest : ((p.names.filter fun n ↦ n ≠ "" && n ≠ ".").map componentOf).getLast? =
      some (.name n) := by
    simp [hp, h.ne_empty, h.ne_current, componentOf, h.ne_parent]
  have hlast : p.components.getLast? = some (.name n) := by
    rw [components]
    split
    · rw [List.getLast?_cons, hrest, Option.getD_some]
    · split
      · rw [List.getLast?_cons, hrest, Option.getD_some]
      · exact hrest
  rw [fileName?, hlast]

theorem fileName?_join (h : IsName n) (p : Path) : (p.join n).fileName? = some n := by
  by_cases hp : p.text = ""
  · have hjoin : p.join n = ⟨n⟩ := by
      rw [join, if_neg (by simp [h.not_isAbsolute]), if_pos (by simp [hp]), hp, String.empty_append]
    exact h.fileName?_of_names [] (hjoin ▸ h.names_mk)
  · obtain ⟨ns, hns, -⟩ := h.names_join hp
    exact h.fileName?_of_names ns hns

/-- The extension is that of the name. -/
theorem hasExtension_join (h : IsName n) (p : Path) (extension : String) :
    (p.join n).hasExtension extension = (Path.mk n).hasExtension extension := by
  have hname : (Path.mk n).fileName? = some n := h.fileName?_of_names [] h.names_mk
  rw [hasExtension, hasExtension, extension?, extension?, h.fileName?_join p, hname]

end IsName

end Path

end ScriptWasm
