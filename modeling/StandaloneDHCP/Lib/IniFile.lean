import Mathlib.Data.List.AList

/-! Configuration files in sections: an ordered list of uniquely named sections, each with its
keys and their values. A missing section reads as an empty one and a missing key as the empty
text. -/
namespace StandaloneDHCP.Lib
set_option autoImplicit false

abbrev IniSection : Type := AList (fun _ : String => String)

abbrev IniFile : Type := AList (fun _ : String => IniSection)

namespace IniSection

def key (sec : IniSection) (name : String) : String := (sec.lookup name).getD ""

/-- Write the entries whose value is not empty, one after the other. -/
def writeAll (sec : IniSection) (entries : List (String × String)) : IniSection :=
  entries.foldl (fun sec e => if e.2 ≠ "" then sec.insert e.1 e.2 else sec) sec

theorem key_insert (sec : IniSection) (name value : String) :
    key (sec.insert name value) name = value := by
  rw [key, AList.lookup_insert]
  rfl

theorem key_insert_ne (sec : IniSection) {name other : String} (value : String)
    (hne : other ≠ name) : key (sec.insert name value) other = sec.key other := by
  rw [key, AList.lookup_insert_ne hne]
  rfl

theorem key_writeAll_of_notMem {entries : List (String × String)} (sec : IniSection)
    {name : String} (hname : name ∉ entries.map Prod.fst) :
    (sec.writeAll entries).key name = sec.key name := by
  induction entries generalizing sec with
  | nil => rfl
  | cons e entries ih =>
    obtain ⟨hne, hrest⟩ : name ≠ e.1 ∧ name ∉ entries.map Prod.fst := by simpa using hname
    rw [writeAll, List.foldl_cons]
    refine (ih _ hrest).trans ?_
    split
    · exact key_insert_ne sec e.2 hne
    · rfl

/-- Each entry is read back; an empty one because its key is missing. -/
theorem key_writeAll {entries : List (String × String)} (hkeys : (entries.map Prod.fst).Nodup)
    {name value : String} (hmem : (name, value) ∈ entries) :
    (writeAll ∅ entries).key name = value := by
  suffices h : ∀ sec : IniSection, sec.key name = "" → (sec.writeAll entries).key name = value from
    h ∅ rfl
  induction entries with
  | nil => cases hmem
  | cons e entries ih =>
    intro sec hsec
    obtain ⟨hfresh, hrest⟩ := List.nodup_cons.mp hkeys
    rw [writeAll, List.foldl_cons]
    rcases List.mem_cons.mp hmem with rfl | hmem
    · refine (key_writeAll_of_notMem _ hfresh).trans ?_
      split
      · exact key_insert _ _ _
      · next hempty =>
        have hvalue : value = "" := not_not.mp hempty
        rw [hsec, hvalue]
    · refine ih hrest hmem _ ?_
      have hne : name ≠ e.1 := by
        rintro rfl
        exact hfresh (List.mem_map.mpr ⟨_, hmem, rfl⟩)
      split
      · rw [key_insert_ne _ _ hne, hsec]
      · exact hsec

end IniSection

namespace IniFile

/-- The section with the name, empty if there is none. -/
def sectionNamed (cfg : IniFile) (name : String) : IniSection := (cfg.lookup name).getD ∅

/-- Write to a section, which is added at the end if there is none of the name. -/
def write (cfg : IniFile) (name : String) (f : IniSection → IniSection) : IniFile :=
  if h : name ∈ cfg then cfg.replace name (f (cfg.sectionNamed name))
  else
    { entries := cfg.entries ++ [⟨name, f ∅⟩]
      nodupKeys := by
        have hfresh : name ∉ cfg.entries.keys := h
        rw [List.NodupKeys, List.keys, List.map_append, List.nodup_append]
        refine ⟨cfg.nodupKeys, by simp, ?_⟩
        rintro other hother _ hlast rfl
        have hother' : other = name := by simpa using hlast
        exact hfresh (hother' ▸ hother) }

def newSection (cfg : IniFile) (name : String) (f : IniSection → IniSection) :
    Except String IniFile :=
  if name = "" then .error "empty section name" else .ok (cfg.write name f)

theorem entries_write {cfg : IniFile} {name : String} (hname : name ∉ cfg)
    (f : IniSection → IniSection) : (cfg.write name f).entries = cfg.entries ++ [⟨name, f ∅⟩] := by
  rw [write, dif_neg hname]

theorem sectionNamed_of_mem {cfg : IniFile} {name : String} {sec : IniSection}
    (hmem : (⟨name, sec⟩ : Sigma fun _ : String => IniSection) ∈ cfg.entries) :
    cfg.sectionNamed name = sec := by
  have hlookup : cfg.lookup name = some sec := AList.mem_lookup_iff.mpr hmem
  rw [sectionNamed, hlookup]
  rfl

/-- New sections with names of their own follow each other. -/
theorem entries_foldl_write {α : Type} (name : α → String) (f : α → IniSection → IniSection)
    (l : List α) (cfg : IniFile) (hnodup : (l.map name).Nodup) (hfresh : ∀ a ∈ l, name a ∉ cfg) :
    (l.foldl (fun cfg a => cfg.write (name a) (f a)) cfg).entries =
      cfg.entries ++ l.map fun a => ⟨name a, f a ∅⟩ := by
  induction l generalizing cfg with
  | nil => simp
  | cons a l ih =>
    obtain ⟨hfirst, hrest⟩ := List.forall_mem_cons.mp hfresh
    obtain ⟨hhead, htail⟩ := List.nodup_cons.mp hnodup
    have hentries := entries_write hfirst (f a)
    rw [List.foldl_cons, ih _ htail, hentries]
    · simp
    · intro b hb hmem
      have hkey : name b ∈ (cfg.write (name a) (f a)).entries.keys := hmem
      rw [hentries, List.keys, List.map_append, List.mem_append] at hkey
      rcases hkey with hkey | hkey
      · exact hrest b hb hkey
      · have hsame : name b = name a := by simpa using hkey
        exact hhead (hsame ▸ List.mem_map_of_mem hb)

end IniFile
end StandaloneDHCP.Lib
