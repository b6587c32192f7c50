import TestSelection.Proofs.Pieces
import TestSelection.Proofs.RoundTrip

/-! Id lists. A criterion keeps its ids as one text, with commas between them, and every reader cuts this text at all of
    its commas. So ids come back from their criterion and from its document exactly if none of them has a comma; one that
    has comes back in pieces (`Criterion.idList_returns`). -/

namespace TestSelection

/-! ### Texts cut at commas -/

namespace Text

section
variable {s : String} {ss : List String}

/-- Joined texts are cut at the commas between them, and at those that they have themselves. -/
theorem commaPieces_intercalate_eq_flatMap (hne : ss ≠ []) : commaPieces (",".intercalate ss) = ss.flatMap commaPieces := by
  induction ss with
  | nil => exact absurd rfl hne
  | cons s ss ih =>
    cases ss with
    | nil => simp
    | cons t ts =>
      have htext : (",".intercalate (s :: t :: ts)).toList = s.toList ++ ',' :: (",".intercalate (t :: ts)).toList := by
        rw [String.intercalate_cons_cons]
        simp
      rw [List.flatMap_cons, ← ih (List.cons_ne_nil t ts), commaPieces, htext, List.splitOn,
        List.splitOnP_append_cons _ _ (by rfl), List.map_append]
      rfl

theorem flatMap_commaPieces_eq_iff (hne : ss ≠ []) : ss.flatMap commaPieces = ss ↔ ∀ s ∈ ss, ',' ∉ s.toList := by
  rw [← commaPieces_intercalate_eq_flatMap hne]
  refine ⟨fun h s hs => ?_, fun h => commaPieces_intercalate h hne⟩
  rw [← h] at hs
  exact comma_not_mem_of_mem_commaPieces hs

theorem intercalate_commaPieces (s : String) : ",".intercalate (commaPieces s) = s := by
  rw [← String.toList_inj, String.toList_intercalate, commaPieces, List.map_map]
  simp [Function.comp_def]

theorem commaPieces_ne_nil (s : String) : commaPieces s ≠ [] := by
  simp [commaPieces]

/-! ### Trimming twice -/

theorem trim_trim (s : String) : trim (trim s) = trim s := by
  have hself : ∀ cs : List Char, (∀ c ∈ cs.head?, isBlank c = false) → cs.dropWhile isBlank = cs := by
    intro cs h
    cases cs with
    | nil => rfl
    | cons c cs => simp [h c rfl]
  obtain ⟨front, hfront⟩ := List.dropWhile_suffix isBlank (l := (s.toList.dropWhile isBlank).reverse)
  have hstart : ∀ c ∈ (trimChars s.toList).head?, isBlank c = false := by
    intro c hc
    have hprefix : trimChars s.toList ++ front.reverse = s.toList.dropWhile isBlank := by
      rw [trimChars, ← List.reverse_append, hfront, List.reverse_reverse]
    refine Markup.head?_dropWhile isBlank s.toList c ?_
    rw [← hprefix, List.head?_append]
    simp [Option.mem_def.mp hc]
  have hend : ∀ c ∈ (trimChars s.toList).reverse.head?, isBlank c = false := by
    rw [trimChars, List.reverse_reverse]
    exact Markup.head?_dropWhile isBlank _
  rw [trim, trim, String.toList_ofList]
  congr 1
  rw [trimChars.eq_def (trimChars s.toList), hself _ hstart, hself _ hend, List.reverse_reverse]

theorem normal_of_mem {id : String} (h : id ∈ (ss.map trim).filter (· ≠ "")) : id ≠ "" ∧ trim id = id := by
  obtain ⟨htrim, hfilled⟩ := List.mem_filter.mp h
  obtain ⟨t, -, rfl⟩ := List.mem_map.mp htrim
  exact ⟨of_decide_eq_true hfilled, trim_trim t⟩

theorem filter_map_trim_eq_self (h : ∀ s ∈ ss, s ≠ "" ∧ trim s = s) : (ss.map trim).filter (· ≠ "") = ss := by
  rw [List.map_congr_left fun s hs => (h s hs).2, List.map_id']
  exact List.filter_eq_self.mpr fun s hs => decide_eq_true (h s hs).1

theorem firstPlaces_self (h : ss.Nodup) : FirstPlaces ss ss := by
  refine ⟨fun _ => Iff.rfl, ?_⟩
  rw [List.pairwise_iff_getElem]
  intro i j hi hj hlt
  rwa [h.idxOf_getElem, h.idxOf_getElem]

end

end Text

open Text

/-! ### Ids of a criterion -/

namespace Criterion

section
variable {listed kept : List String} {c : Criterion} {joined : Filled}

/-- The criterion of some ids has these ids, with every one of them cut at its commas. -/
theorem testIds_of_ofIds (h : ofIds listed = .ok c) : ∃ kept, FirstPlaces ((listed.map trim).filter (· ≠ "")) kept ∧
    kept ≠ [] ∧ (∃ joined, c = ids joined) ∧ c.testIds = kept.flatMap commaPieces := by
  obtain ⟨kept, hkept, hne, joined, hjoined, rfl⟩ := ofIds_eq_ok_iff.mp h
  refine ⟨kept, hkept, hne, ⟨joined, rfl⟩, ?_⟩
  rw [testIds, ← hjoined, commaPieces_intercalate_eq_flatMap hne]

/-- The ids of a criterion make the same criterion again if nothing is to be dropped or trimmed of them. -/
theorem ofIds_testIds_iff : ofIds (ids joined).testIds = .ok (ids joined) ↔
    (ids joined).testIds.Nodup ∧ ∀ id ∈ (ids joined).testIds, id ≠ "" ∧ trim id = id := by
  simp only [testIds, ofIds_eq_ok_iff]
  constructor
  · rintro ⟨kept, hkept, hne, joined', hjoined, heq⟩
    cases heq
    have hcomma : ∀ id ∈ kept, ',' ∉ id.toList := fun id hid =>
      comma_not_mem_of_mem_filledPieces ((hkept.mem_iff id).mp hid)
    rw [← hjoined, commaPieces_intercalate hcomma hne] at hkept ⊢
    exact ⟨hkept.nodup, fun id hid => normal_of_mem ((hkept.mem_iff id).mp hid)⟩
  · rintro ⟨hnodup, hids⟩
    refine ⟨commaPieces joined.text, ?_, commaPieces_ne_nil _, joined, intercalate_commaPieces _, rfl⟩
    rw [filter_map_trim_eq_self hids]
    exact firstPlaces_self hnodup

/-! ### Documents of one criterion -/

/-- The filter that only has this criterion. -/
def alone (c : Criterion) : Filter := .clause { first := ⟨c, false⟩ }

/-- There are chains that hold only the criterion, and every document that is built from one is parsed to a result of a
    certain kind. -/
def ParsesAlone (c : Criterion) (P : Except Markup.ParseError Selection → Prop) : Prop :=
  (∃ b h, Bench.Finished b h c.alone) ∧ ∀ b h, Bench.Finished b h c.alone → ∃ d, b.build h = .ok d ∧ P d.parse

theorem parsesAlone_ids (joined : Filled) : (ids joined).ParsesAlone fun r =>
    (filledPieces joined.text ≠ [] ∧ r = .ok (.ids (filledPieces joined.text))) ∨
      (filledPieces joined.text = [] ∧ ∃ span, r = .error ⟨.noIds, some span⟩) := by
  refine ⟨Bench.exists_finished _, fun b h hf => ⟨_, hf.build_eq, ?_⟩⟩
  rcases (ids joined).alone.parse_document with ⟨hdeep, -⟩ | ⟨-, htaken⟩
  · have hdepth : (ids joined).alone.depth = 2 := rfl
    rw [hdepth] at hdeep
    exact absurd hdeep (by decide)
  · rcases htaken with ⟨hids, hparse⟩ | ⟨⟨t, ht, hlacks⟩, span, hparse⟩
    · exact Or.inl ⟨fun hnil => hids _ List.mem_cons_self ⟨joined, rfl, hnil⟩, hparse⟩
    · obtain rfl : t = ⟨ids joined, false⟩ := List.mem_singleton.mp ht
      obtain ⟨_, heq, hnil⟩ := hlacks
      cases heq
      exact Or.inr ⟨hnil, span, hparse⟩

/-! ### Id lists -/

/-- The ids come back as they are: from the criterion, into an equal one, and from its document. -/
structure KeepsIds (c : Criterion) (kept : List String) : Prop where
  testIds : c.testIds = kept
  rebuilt : ofIds c.testIds = .ok c
  parsed : c.ParsesAlone (· = .ok (.ids kept))

/-- The ids come back cut at their commas. From the criterion they come with all their pieces, and make an equal one only
    if nothing is to be dropped or trimmed of these. From its document they come trimmed and without the blank pieces, and
    it is refused if nothing else is left. -/
structure CutsIds (c : Criterion) (kept : List String) : Prop where
  testIds : c.testIds = kept.flatMap commaPieces
  changed : c.testIds ≠ kept
  rebuilt_iff : ofIds c.testIds = .ok c ↔ c.testIds.Nodup ∧ ∀ id ∈ c.testIds, id ≠ "" ∧ trim id = id
  parsed : c.ParsesAlone fun r =>
    ((c.testIds.map trim).filter (· ≠ "") ≠ [] ∧ r = .ok (.ids ((c.testIds.map trim).filter (· ≠ "")))) ∨
      ((c.testIds.map trim).filter (· ≠ "") = [] ∧ ∃ span, r = .error ⟨.noIds, some span⟩)

theorem ParsesAlone.mono {P Q : Except Markup.ParseError Selection → Prop} (h : c.ParsesAlone P) (hPQ : ∀ r, P r → Q r) :
    c.ParsesAlone Q := ⟨h.1, fun b place hf =>
  have ⟨d, hd, hP⟩ := h.2 b place hf
  ⟨d, hd, hPQ _ hP⟩⟩

/-- Of some ids, those that are not blank are kept, trimmed and each at its first place. They come back from their
    criterion as they are if none of them has a comma, and else cut at the commas. -/
theorem idList_returns (h : ofIds listed = .ok c) : ∃ kept, FirstPlaces ((listed.map trim).filter (· ≠ "")) kept ∧
    (((∀ id ∈ kept, ',' ∉ id.toList) ∧ c.KeepsIds kept) ∨ ((∃ id ∈ kept, ',' ∈ id.toList) ∧ c.CutsIds kept)) := by
  obtain ⟨kept, hkept, hne, ⟨joined, rfl⟩, hids⟩ := testIds_of_ofIds h
  refine ⟨kept, hkept, ?_⟩
  by_cases hcomma : ∀ id ∈ kept, ',' ∉ id.toList
  · have hsame : (ids joined).testIds = kept := hids.trans ((flatMap_commaPieces_eq_iff hne).mpr hcomma)
    have hnormal : ∀ id ∈ kept, id ≠ "" ∧ trim id = id := fun id hid => normal_of_mem ((hkept.mem_iff id).mp hid)
    have hfilled : filledPieces joined.text = kept := by
      have hpieces : commaPieces joined.text = kept := hsame
      rw [filledPieces, hpieces, filter_map_trim_eq_self hnormal]
    refine Or.inl ⟨hcomma, hsame, ofIds_testIds_iff.mpr (hsame ▸ ⟨hkept.nodup, hnormal⟩), ?_⟩
    refine (parsesAlone_ids joined).mono fun r hr => ?_
    rw [hfilled] at hr
    rcases hr with ⟨-, hr⟩ | ⟨hnil, -⟩
    · exact hr
    · exact absurd hnil hne
  · have hchanged : (ids joined).testIds ≠ kept := fun heq =>
      hcomma ((flatMap_commaPieces_eq_iff hne).mp (hids.symm.trans heq))
    exact Or.inr ⟨by simpa using hcomma, hids, hchanged, ofIds_testIds_iff, parsesAlone_ids joined⟩

/-- Trimmed, without the blank one and the second of two equal ones, these ids come back. -/
theorem idList_returns_trimmed : ofIds [" é", "", "b c ", "é"] = .ok (ids ⟨"é,b c", by decide⟩) ∧
    (ids ⟨"é,b c", by decide⟩).KeepsIds ["é", "b c"] := by
  have hmade : ofIds [" é", "", "b c ", "é"] = .ok (ids ⟨"é,b c", by decide⟩) := by decide
  obtain ⟨kept, hkept, hreturns⟩ := idList_returns hmade
  obtain rfl : kept = ["é", "b c"] := hkept.unique (firstPlaces_eraseDups _)
  rcases hreturns with ⟨-, hkeeps⟩ | ⟨hcomma, -⟩
  · exact ⟨hmade, hkeeps⟩
  · exact absurd hcomma (by decide)

/-- An id with a comma in it does not come back in any of the three ways. -/
theorem idList_with_comma : ∃ c, ofIds ["a , b"] = .ok c ∧
    FirstPlaces ((["a , b"].map trim).filter (· ≠ "")) ["a , b"] ∧ c.testIds ≠ ["a , b"] ∧ ofIds c.testIds ≠ .ok c ∧
      ¬c.ParsesAlone (· = .ok (.ids ["a , b"])) := by
  refine ⟨ids ⟨"a , b", by decide⟩, by decide, firstPlaces_eraseDups _, by decide, by decide, fun h => ?_⟩
  obtain ⟨⟨b, place, hf⟩, hparsed⟩ := h
  obtain ⟨d, hbuild, hd⟩ := hparsed b place hf
  obtain ⟨d', hbuild', hd'⟩ := (parsesAlone_ids _).2 b place hf
  rw [hbuild] at hbuild'
  cases hbuild'
  rw [hd] at hd'
  have hpieces : filledPieces "a , b" = ["a", "b"] := by decide
  rcases hd' with ⟨-, hd'⟩ | ⟨-, span, hd'⟩
  · rw [hpieces] at hd'
    exact absurd (Selection.ids.inj (Except.ok.inj hd')) (by decide)
  · cases hd'

end

end Criterion

end TestSelection
