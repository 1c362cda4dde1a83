import DSYMCreator.Script.MainScript

/-!
# The path of the symbol file

The script takes the binary's path apart and puts the file name, with `.symbol`
behind it, back into the directory. For every way to write the binary's path this is
the absolute path with that suffix.
-/
namespace DSYMCreator.MainScript

open Text Text.PosixPath

def symbolSuffix : Bytes := ascii ".symbol"

theorem slash_notMem_symbolSuffix : slash ∉ symbolSuffix := by decide

theorem outputSymbolPath_eq {cwd : Bytes} (h : isabs cwd) (p : Bytes) :
    outputSymbolPath cwd p = abspath cwd p ++ symbolSuffix :=
  join_split_of_normal (normal_abspath h p) slash_notMem_symbolSuffix

/-- The symbol file is in the binary's directory, under its name with the suffix, and its path
means the same from everywhere. The absolute path of the binary names the same symbol file from
every other directory. -/
theorem outputSymbolPath_beside {cwd : Bytes} (h : isabs cwd) (p : Bytes) :
    outputSymbolPath cwd p = abspath cwd p ++ symbolSuffix ∧
      (split (outputSymbolPath cwd p)).1 = (split (abspath cwd p)).1 ∧
      (split (outputSymbolPath cwd p)).2 = (split (abspath cwd p)).2 ++ symbolSuffix ∧
      ∀ dir, isabs dir → abspath dir (outputSymbolPath cwd p) = outputSymbolPath cwd p ∧
        outputSymbolPath dir (abspath cwd p) = outputSymbolPath cwd p := by
  have hnormal := normal_abspath h p
  have houtput := outputSymbolPath_eq h p
  obtain ⟨head, tail, hsplit, hhead, htail⟩ := exists_split_of_normal hnormal
  have hlong : slash ∉ tail ++ symbolSuffix := by
    rw [List.mem_append]
    exact fun hmem => hmem.elim htail slash_notMem_symbolSuffix
  have hparts : outputSymbolPath cwd p = head ++ (tail ++ symbolSuffix) := by
    rw [houtput, hsplit, List.append_assoc]
  refine ⟨houtput, ?_, ?_, fun dir hdir => ⟨?_, ?_⟩⟩
  · rw [hparts, hsplit, split_append hhead.ends hlong, split_append hhead.ends htail]
  · rw [hparts, hsplit, split_append hhead.ends hlong, split_append hhead.ends htail]
  · rw [houtput]
    exact abspath_of_normal (hnormal.append slash_notMem_symbolSuffix (by decide)) dir
  · rw [outputSymbolPath_eq hdir, abspath_of_normal hnormal, houtput]

theorem outputSymbolPath_beside_app :
    outputSymbolPath (ascii "/Users/me") (ascii "../x/./App") =
        abspath (ascii "/Users/me") (ascii "../x/./App") ++ symbolSuffix ∧
      abspath (ascii "/Users/me") (ascii "../x/./App") = ascii "/Users/x/App" :=
  ⟨(outputSymbolPath_beside (by decide) (ascii "../x/./App")).1, by decide⟩

end DSYMCreator.MainScript
