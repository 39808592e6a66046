import SeisFeed.Proofs.Channel.Selecting
import SeisFeed.Proofs.Session.Progress
import SeisFeed.Session.Settings
/-!
# What a check promises

The patterns of a request are read twice: when the request is checked, and later when channels are
selected. Both readings draw the line where the grammar does, so what was checked selects from every
directory.
-/

namespace SeisFeed.Session

variable {patterns network : String}

theorem checkPatterns_eq_ok_iff :
    checkPatterns patterns network = .ok () ↔
      network ≠ "" ∧ ∃ ps, Pattern.parseList patterns network = .ok ps := by
  rw [checkPatterns]
  by_cases hnetwork : network = ""
  · simp [hnetwork]
  · cases hparse : Pattern.parseList patterns network <;> simp [hnetwork]

theorem StreamRequest.checks_of_validate {r : StreamRequest} (h : r.validate = .ok ()) :
    checkPatterns r.patterns r.network = .ok () := by
  rw [validate] at h
  obtain ⟨_, hpatterns, -⟩ := ok_of_bind h
  exact hpatterns

theorem ArchiveRequest.checks_of_validate {r : ArchiveRequest} (h : r.validate = .ok ()) :
    checkPatterns r.patterns r.network = .ok () ∧ r.credentials.validate = .ok () := by
  rw [validate] at h
  obtain ⟨_, hpatterns, h⟩ := ok_of_bind h
  obtain ⟨_, hcredentials, -⟩ := ok_of_bind h
  exact ⟨hpatterns, hcredentials⟩

theorem exists_subset_of_checkPatterns (h : checkPatterns patterns network = .ok ())
    (d : Directory) : ∃ selected, d.subset patterns network = .ok selected :=
  Directory.exists_subset_eq_ok_iff.2 (checkPatterns_eq_ok_iff.1 h).2

/-- A list of patterns is accepted just where it is not blank and each of its items spells a
pattern; then there is one pattern for each item, in order. What is refused is the first item that
spells none, or the whole of a blank list, and it is reported as it was given. So selecting by the
patterns of a request that was checked never fails. -/
theorem patterns_accepted_by_grammar :
    (∀ text defaultNetwork : String, ∃ items, Text.Divided ',' text items ∧
      ((∃ ps, Pattern.parseList text defaultNetwork = .ok ps) ↔
        ¬ Text.Blank text ∧ ∀ item ∈ items, Pattern.Item defaultNetwork item) ∧
      (∀ ps, Pattern.parseList text defaultNetwork = .ok ps →
        List.Forall₂ (fun item p => ∃ network station channel,
          Pattern.Spells defaultNetwork item network station channel ∧
            p = Pattern.ofTexts network station channel) items ps) ∧
      (Text.Blank text →
        Pattern.parseList text defaultNetwork = .error (.invalidPattern text)) ∧
      ∀ fault, Pattern.parseList text defaultNetwork = .error fault → ∃ before item after,
        items = before ++ item :: after ∧ (∀ item' ∈ before, Pattern.Item defaultNetwork item') ∧
          ¬ Pattern.Item defaultNetwork item ∧ fault = .invalidPattern item) ∧
    (∀ r : StreamRequest, r.validate = .ok () →
      ∀ d : Directory, ∃ selected, d.subset r.patterns r.network = .ok selected) ∧
    ∀ r : ArchiveRequest, r.validate = .ok () →
      ∀ d : Directory, ∃ selected, d.subset r.patterns r.network = .ok selected := by
  refine ⟨fun text defaultNetwork => ?_, fun r h => ?_, fun r h => ?_⟩
  · have hitems := Text.divided_splitOn ',' text
    refine ⟨_, hitems, ?_, fun ps h => ?_, fun h => ?_, fun fault h => ?_⟩
    · rw [Pattern.exists_parseList_eq_ok_iff hitems]
      refine ⟨fun h => ⟨fun hblank => ?_, h⟩, And.right⟩
      have hone := hitems.unique (Pattern.divided_of_blank hblank)
      exact Pattern.not_item_of_blank hblank (h text (hone ▸ List.mem_singleton_self text))
    · have hread := (Pattern.parseList_eq_ok_iff hitems).1 h
      exact hread.imp fun _ _ => Pattern.parse_eq_ok_iff.1
    · rw [Pattern.parseList_eq (Pattern.divided_of_blank h), List.mapM_cons,
        Pattern.parse_eq_error_iff.2 ⟨Pattern.not_item_of_blank h, rfl⟩]
      rfl
    · exact (Pattern.parseList_eq_error_iff hitems).1 h
  · exact exists_subset_of_checkPatterns (StreamRequest.checks_of_validate h)
  · exact exists_subset_of_checkPatterns (ArchiveRequest.checks_of_validate h).1

theorem patterns_accepted_by_grammar_with_margins :
    (StreamRequest.ofPatterns " IU.ANMO.BH? ,*.HHZ\t").validate = .ok () ∧
      (ArchiveRequest.ofPatterns " IU.ANMO.BH? ,*.HHZ\t" ⟨0, 60⟩).validate = .ok () ∧
      (∃ selected, (Directory.ofList [⟨0x0C010100, "ANMO.BHZ", none⟩]).subset
        " IU.ANMO.BH? ,*.HHZ\t" "XX" = .ok selected) ∧
      Pattern.parseList "A.B,, C" "XX" = .error (.invalidPattern "") ∧ ¬ Pattern.Item "XX" "" := by
  obtain ⟨hlists, hstreams, -⟩ := patterns_accepted_by_grammar
  have hstream : (StreamRequest.ofPatterns " IU.ANMO.BH? ,*.HHZ\t").validate = .ok () := rfl
  have hrefused : Pattern.parseList "A.B,, C" "XX" = .error (.invalidPattern "") := rfl
  obtain ⟨items, -, -, -, -, hfault⟩ := hlists "A.B,, C" "XX"
  obtain ⟨before, item, after, -, -, hitem, heq⟩ := hfault _ hrefused
  obtain rfl : "" = item := ProtocolFault.invalidPattern.inj heq
  exact ⟨hstream, rfl, hstreams _ hstream _, hrefused, hitem⟩

end SeisFeed.Session
