import TestSelection.Markup.Element
import TestSelection.Results

/-! The grammar of filter text, on tokens. An element is an opening tag with attributes of different names,
    and then either the end of an empty tag, or content and the closing tag of the same name. Main
    statement: tokens are put together to an element exactly if they make that element, with blank texts
    around it, and it is at most `maxNesting` levels deep (`ofTokens_eq_ok_iff`).

    Both directions go through what reading some tokens does to an assembly: tokens that make an element
    add it to the element around it, unless the nesting gets too deep (`leads_element`), and an assembly
    that gets as far as a root has read such tokens (`element_of_run`). -/

namespace TestSelection.Markup

/-! ### The grammar -/

/-- Attributes: a name, `=` and a value for each. -/
inductive MakeAttributes : List Token → List (String × String) → Prop where
  | nil : MakeAttributes [] []
  | cons {ts : List Token} {attributes : List (String × String)} {attr raw : String} {s₁ s₂ s₃ : Span}
      (h : MakeAttributes ts attributes) :
      MakeAttributes (⟨.attrName attr, s₁⟩ :: ⟨.equals, s₂⟩ :: ⟨.quotedValue raw, s₃⟩ :: ts)
        ((attr, decode raw) :: attributes)

mutual

/-- An element, from its opening tag to its end. -/
inductive MakeElement : List Token → Element → Prop where
  | selfClosed {as : List Token} {attributes : List (String × String)} {name : String} {span stop : Span}
      (has : MakeAttributes as attributes) (hdistinct : (attributes.map (·.1)).Nodup) :
      MakeElement (⟨.openTag name, span⟩ :: (as ++ [⟨.selfClose, stop⟩])) ⟨name, span, attributes, [], ""⟩
  | enclosing {as ts : List Token} {attributes : List (String × String)} {children : List Element}
      {name text : String} {span tagEnd stop : Span} (has : MakeAttributes as attributes)
      (hdistinct : (attributes.map (·.1)).Nodup) (hts : MakeContent ts children text) :
      MakeElement (⟨.openTag name, span⟩ :: (as ++ ⟨.tagEnd, tagEnd⟩ :: (ts ++ [⟨.closeTag name, stop⟩])))
        ⟨name, span, attributes, children, text⟩

/-- What stands between the tags of an element: texts, which are joined into one, and elements. -/
inductive MakeContent : List Token → List Element → String → Prop where
  | nil : MakeContent [] [] ""
  | text {ts : List Token} {children : List Element} {raw text : String} {span : Span}
      (hts : MakeContent ts children text) : MakeContent (⟨.text raw, span⟩ :: ts) children (decode raw ++ text)
  | child {us ts : List Token} {e : Element} {children : List Element} {text : String} (hus : MakeElement us e)
      (hts : MakeContent ts children text) : MakeContent (us ++ ts) (e :: children) text

end

def Blanks (ts : List Token) : Prop := ∀ t ∈ ts, ∃ raw, t.lexeme = .text raw ∧ Text.blank raw = true

mutual

/-- How many levels of elements there are, from the element itself on. -/
def Element.height : Element → Nat
  | ⟨_, _, _, children, _⟩ => Element.heightAll children + 1

def Element.heightAll : List Element → Nat
  | [] => 0
  | e :: es => max e.height (Element.heightAll es)

end

namespace Assembly

/-! ### Runs -/

def run (a : Assembly) (ts : List Token) : Except ParseError Assembly := ts.foldlM step a

/-- What follows once an element is complete. -/
def placed (e : Element) : List OpenElement → Assembly
  | [] => afterRoot e
  | parent :: around => inContent { parent with earlier := e :: parent.earlier } around

section
variable {a b : Assembly} {t : Token} {ts us : List Token} {cause : ParseError} {current : OpenElement}
  {around : List OpenElement} {e root : Element}

theorem complete_eq_placed : complete current around = placed current.element around := by
  cases around <;> rfl

theorem run_cons_of_ok (h : step a t = .ok b) : run a (t :: ts) = run b ts := by
  rw [run, List.foldlM_cons, h]
  rfl

theorem run_cons_of_error (h : step a t = .error cause) : run a (t :: ts) = .error cause := by
  rw [run, List.foldlM_cons, h]
  rfl

theorem run_cons_eq_ok_iff : run a (t :: ts) = .ok b ↔ ∃ m, step a t = .ok m ∧ run m ts = .ok b := foldlM_cons_eq_ok_iff

/-! ### Tokens that make an element -/

/-- The tokens lead from one assembly to another, unless there are too many levels of elements: then one of
    them is refused. -/
def Leads (a : Assembly) (ts : List Token) (levels : Nat) (b : Assembly) : Prop :=
  ∀ rest, (levels ≤ maxNesting → run a (ts ++ rest) = run b rest) ∧
    (maxNesting < levels → ∃ span, run a (ts ++ rest) = .error ⟨.tooDeep, some span⟩)

theorem leads_attributes {attributes : List (String × String)} (h : MakeAttributes us attributes) :
    ∀ current : OpenElement, ((current.attributes ++ attributes).map (·.1)).Nodup → ∀ rest,
      run (inTag current around .attrOrEnd) (us ++ rest) =
        run (inTag { current with attributes := current.attributes ++ attributes } around .attrOrEnd) rest := by
  induction h with
  | nil => simp
  | @cons ts attributes attr raw s₁ s₂ s₃ _ ih =>
    intro current hdistinct rest
    have hnew : current.hasAttribute attr = false := by
      simp only [List.map_append, List.map_cons, List.nodup_append, List.mem_map, List.mem_cons] at hdistinct
      simp only [OpenElement.hasAttribute, List.any_eq_false, beq_iff_eq]
      exact fun a ha hattr => hdistinct.2.2 _ ⟨a, ha, rfl⟩ _ (Or.inl rfl) hattr
    have hvalue : step (inTag current around (.value attr s₁)) ⟨.quotedValue raw, s₃⟩ =
        .ok (inTag { current with attributes := current.attributes ++ [(attr, decode raw)] } around .attrOrEnd) := by
      simp [step, stepInTag, hnew]
    have htail := ih { current with attributes := current.attributes ++ [(attr, decode raw)] }
      (by simpa using hdistinct) rest
    calc run (inTag current around .attrOrEnd) _
        = run (inTag current around (.equals attr s₁)) (⟨.equals, s₂⟩ :: ⟨.quotedValue raw, s₃⟩ :: (ts ++ rest)) :=
          run_cons_of_ok rfl
      _ = run (inTag current around (.value attr s₁)) (⟨.quotedValue raw, s₃⟩ :: (ts ++ rest)) := run_cons_of_ok rfl
      _ = _ := run_cons_of_ok hvalue
      _ = _ := by simpa using htail

end

mutual

/-- Behind its opening tag, an element leads to the assembly that has it as a further element. -/
theorem leads_element {us : List Token} {e : Element} (h : MakeElement us e) : ∃ ts, us = ⟨.openTag e.name, e.span⟩ :: ts ∧
    ∀ around : List OpenElement, around.length < maxNesting →
      Leads (inTag { name := e.name, span := e.span } around .attrOrEnd) ts (around.length + e.height) (placed e around) := by
  match h with
  | @MakeElement.selfClosed as attributes name span stop has hdistinct =>
    refine ⟨_, rfl, fun around hlt rest => ⟨fun _ => ?_, fun hgt => ?_⟩⟩
    · rw [List.append_assoc, leads_attributes has _ (by simpa using hdistinct)]
      rw [List.singleton_append, run_cons_of_ok (b := placed _ around) (by rw [← complete_eq_placed]; rfl)]
      rfl
    · simp only [Element.height, Element.heightAll] at hgt
      omega
  | @MakeElement.enclosing as ts attributes children name text span tagEnd stop has hdistinct hts =>
    refine ⟨_, rfl, fun around hlt rest => ?_⟩
    have hcontent := leads_content hts { name, span, attributes } around hlt (⟨.closeTag name, stop⟩ :: rest)
    have hopen : run (inTag { name, span } around .attrOrEnd)
        (as ++ ⟨.tagEnd, tagEnd⟩ :: (ts ++ [⟨.closeTag name, stop⟩]) ++ rest) =
        run (inContent { name, span, attributes } around) (ts ++ ⟨.closeTag name, stop⟩ :: rest) := by
      rw [List.append_assoc, leads_attributes has _ (by simpa using hdistinct), List.cons_append,
        run_cons_of_ok (b := inContent _ around) rfl]
      simp
    simp only [Element.height]
    rw [hopen]
    refine ⟨fun hle => ?_, fun hgt => hcontent.2 (by omega)⟩
    rw [hcontent.1 (by omega), run_cons_of_ok (b := placed _ around)]
    simp [step, stepInContent, complete_eq_placed, OpenElement.element]

/-- Content leads to the assembly that has its elements and its text in addition. -/
theorem leads_content {ts : List Token} {children : List Element} {text : String} (h : MakeContent ts children text)
    (current : OpenElement) (around : List OpenElement) (hlt : around.length < maxNesting) :
    Leads (inContent current around) ts (around.length + 1 + Element.heightAll children)
      (inContent { current with earlier := children.reverse ++ current.earlier, text := current.text ++ text } around) := by
  intro rest
  match h with
  | .nil =>
    refine ⟨fun _ => by simp, fun hgt => ?_⟩
    simp only [Element.heightAll] at hgt
    omega
  | @MakeContent.text ts children raw text span hts =>
    have hstep : step (inContent current around) ⟨.text raw, span⟩ =
        .ok (inContent { current with text := current.text ++ decode raw } around) := rfl
    have htail := leads_content hts { current with text := current.text ++ decode raw } around hlt rest
    rw [List.cons_append, run_cons_of_ok hstep]
    simpa [String.append_assoc] using htail
  | @MakeContent.child us ts e children text hus hts =>
    obtain ⟨us, rfl, htag⟩ := leads_element hus
    simp only [Element.heightAll]
    by_cases hroom : around.length + 1 < maxNesting
    · have hstep : step (inContent current around) ⟨.openTag e.name, e.span⟩ =
          .ok (inTag { name := e.name, span := e.span } (current :: around) .attrOrEnd) := by
        simp [step, stepInContent, hroom]
      have helement := htag (current :: around) (by simpa using hroom) (ts ++ rest)
      have htail := leads_content hts { current with earlier := e :: current.earlier } around hlt rest
      simp only [List.length_cons] at helement
      rw [List.cons_append, List.cons_append, run_cons_of_ok hstep, List.append_assoc]
      by_cases hfit : around.length + 1 + e.height ≤ maxNesting
      · rw [helement.1 hfit]
        refine ⟨fun hle => ?_, fun hgt => htail.2 (by omega)⟩
        have := htail.1 (by omega)
        simpa [placed] using this
      · exact ⟨fun hle => absurd hle (by omega), fun _ => helement.2 (by omega)⟩
    · have hstep : step (inContent current around) ⟨.openTag e.name, e.span⟩ =
          .error ⟨.tooDeep, some e.span⟩ := by
        simp [step, stepInContent, hroom, refuse]
      have hpos : 0 < e.height := by
        obtain ⟨_, _, _, _, _⟩ := e
        simp [Element.height]
      refine ⟨fun hle => absurd hle (by omega), fun _ => ⟨e.span, ?_⟩⟩
      rw [List.cons_append, List.cons_append, run_cons_of_error hstep]

end

/-! ### What one token does -/

section
variable {m : Assembly} {t : Token} {current : OpenElement} {around : List OpenElement} {attr : String} {span : Span}
  {e root : Element}

theorem step_beforeRoot_inv (h : step beforeRoot t = .ok m) :
    (∃ name, t.lexeme = .openTag name ∧ m = inTag { name, span := t.span } [] .attrOrEnd) ∨
      (∃ raw, t.lexeme = .text raw ∧ Text.blank raw = true ∧ m = beforeRoot) := by
  simp only [step] at h
  split at h
  · rename_i name hname
    cases h
    exact Or.inl ⟨name, hname, rfl⟩
  · rename_i raw hraw
    split at h
    · rename_i hblank
      cases h
      exact Or.inr ⟨raw, hraw, hblank, rfl⟩
    · cases h
  · cases h

theorem step_attrOrEnd_inv (h : step (inTag current around .attrOrEnd) t = .ok m) :
    (∃ attr, t.lexeme = .attrName attr ∧ m = inTag current around (.equals attr t.span)) ∨
      (t.lexeme = .selfClose ∧ m = placed current.element around) ∨
      (t.lexeme = .tagEnd ∧ m = inContent current around) := by
  simp only [step, stepInTag] at h
  split at h
  · rename_i attr hattr
    cases h
    exact Or.inl ⟨attr, hattr, rfl⟩
  · rename_i hclose
    cases h
    exact Or.inr (Or.inl ⟨hclose, complete_eq_placed⟩)
  · rename_i hend
    cases h
    exact Or.inr (Or.inr ⟨hend, rfl⟩)
  · cases h

theorem step_equals_inv (h : step (inTag current around (.equals attr span)) t = .ok m) :
    t.lexeme = .equals ∧ m = inTag current around (.value attr span) := by
  simp only [step, stepInTag] at h
  split at h
  · rename_i heq
    cases h
    exact ⟨heq, rfl⟩
  · cases h

theorem step_value_inv (h : step (inTag current around (.value attr span)) t = .ok m) :
    ∃ raw, t.lexeme = .quotedValue raw ∧ current.hasAttribute attr = false ∧
      m = inTag { current with attributes := current.attributes ++ [(attr, decode raw)] } around .attrOrEnd := by
  simp only [step, stepInTag] at h
  split at h
  · rename_i raw hraw
    split at h
    · cases h
    · rename_i hnew
      cases h
      exact ⟨raw, hraw, by simpa using hnew, rfl⟩
  · cases h

theorem step_inContent_inv (h : step (inContent current around) t = .ok m) :
    (∃ name, t.lexeme = .openTag name ∧ around.length + 1 < maxNesting ∧
        m = inTag { name, span := t.span } (current :: around) .attrOrEnd) ∨
      (∃ raw, t.lexeme = .text raw ∧ m = inContent { current with text := current.text ++ decode raw } around) ∨
      (t.lexeme = .closeTag current.name ∧ m = placed current.element around) := by
  simp only [step, stepInContent] at h
  split at h
  · rename_i name hname
    split at h
    · rename_i hroom
      cases h
      exact Or.inl ⟨name, hname, hroom, rfl⟩
    · cases h
  · rename_i raw hraw
    cases h
    exact Or.inr (Or.inl ⟨raw, hraw, rfl⟩)
  · rename_i closing hclosing
    split at h
    · rename_i hname
      cases h
      exact Or.inr (Or.inr ⟨hname ▸ hclosing, complete_eq_placed⟩)
    · cases h
  · cases h

theorem step_afterRoot_inv (h : step (afterRoot e) t = .ok m) :
    ∃ raw, t.lexeme = .text raw ∧ Text.blank raw = true ∧ m = afterRoot e := by
  simp only [step] at h
  split at h
  · rename_i raw hraw
    split at h
    · rename_i hblank
      cases h
      exact ⟨raw, hraw, hblank, rfl⟩
    · cases h
  · cases h

end

/-! ### Assemblies that get as far as a root -/

section
variable {a : Assembly} {ts : List Token} {root : Element}

theorem exists_token_of_run (h : run a ts = .ok (afterRoot root)) (ha : ∀ e, a ≠ afterRoot e) :
    ∃ t rest m, ts = t :: rest ∧ step a t = .ok m ∧ run m rest = .ok (afterRoot root) := by
  cases ts with
  | nil =>
    cases h
    exact absurd rfl (ha root)
  | cons t rest =>
    obtain ⟨m, hstep, hrun⟩ := run_cons_eq_ok_iff.mp h
    exact ⟨t, rest, m, rfl, hstep, hrun⟩

/-- Up to the end of an opening tag there are attributes of different names. -/
theorem attributes_of_run {around : List OpenElement} (n : Nat) : ∀ (ts : List Token) (current : OpenElement),
    ts.length ≤ n → (current.attributes.map (·.1)).Nodup →
    run (inTag current around .attrOrEnd) ts = .ok (afterRoot root) →
    ∃ us attributes t rest, ts = us ++ t :: rest ∧ MakeAttributes us attributes ∧
      ((current.attributes ++ attributes).map (·.1)).Nodup ∧
      ((t.lexeme = .selfClose ∧
          run (placed { current with attributes := current.attributes ++ attributes : OpenElement }.element around)
            rest = .ok (afterRoot root)) ∨
        (t.lexeme = .tagEnd ∧
          run (inContent { current with attributes := current.attributes ++ attributes } around) rest =
            .ok (afterRoot root))) := by
  induction n with
  | zero =>
    intro ts current hlen _ h
    obtain ⟨t, rest, -, rfl, -, -⟩ := exists_token_of_run h (by simp)
    simp at hlen
  | succ n ih =>
    intro ts current hlen hdistinct h
    obtain ⟨⟨lexeme, s₁⟩, ts, m, rfl, hstep, hrun⟩ := exists_token_of_run h (by simp)
    rcases step_attrOrEnd_inv hstep with ⟨attr, rfl, rfl⟩ | ⟨hclose, rfl⟩ | ⟨hend, rfl⟩
    · obtain ⟨⟨_, s₂⟩, ts, m, rfl, hstep, hrun⟩ := exists_token_of_run hrun (by simp)
      obtain ⟨rfl, rfl⟩ := step_equals_inv hstep
      obtain ⟨⟨_, s₃⟩, ts, m, rfl, hstep, hrun⟩ := exists_token_of_run hrun (by simp)
      obtain ⟨raw, rfl, hnew, rfl⟩ := step_value_inv hstep
      have hdistinct' : ((current.attributes ++ [(attr, decode raw)]).map (·.1)).Nodup := by
        have hfresh : ∀ a ∈ current.attributes, a.1 ≠ attr := by
          simpa [OpenElement.hasAttribute] using hnew
        simp only [List.map_append, List.nodup_append, List.map_cons, List.map_nil, List.mem_map, List.mem_singleton]
        refine ⟨hdistinct, by simp, ?_⟩
        rintro _ ⟨a, ha, rfl⟩ _ rfl
        exact hfresh a ha
      simp only [List.length_cons] at hlen
      obtain ⟨us, attributes, t, rest, rfl, hus, hall, hrest⟩ := ih ts _ (by omega) hdistinct' hrun
      exact ⟨_, _, t, rest, rfl, .cons hus, by simpa using hall, by simpa using hrest⟩
    · exact ⟨[], [], _, ts, rfl, .nil, by simpa using hdistinct, Or.inl ⟨hclose, by simpa using hrun⟩⟩
    · exact ⟨[], [], _, ts, rfl, .nil, by simpa using hdistinct, Or.inr ⟨hend, by simpa using hrun⟩⟩

/-- Tokens that go on with the rest of an element behind its opening tag, and then lead to the root. -/
def EndsElement (root : Element) (name : String) (span : Span) (around : List OpenElement) (ts : List Token) : Prop :=
  ∃ us rest e, ts = us ++ rest ∧ MakeElement (⟨.openTag name, span⟩ :: us) e ∧
    around.length + e.height ≤ maxNesting ∧ run (placed e around) rest = .ok (afterRoot root)

/-- Tokens that go on with content up to the closing tag of the current element, and then lead to the root. -/
def EndsContent (root : Element) (current : OpenElement) (around : List OpenElement) (ts : List Token) : Prop :=
  ∃ us rest children text stop, ts = us ++ ⟨.closeTag current.name, stop⟩ :: rest ∧ MakeContent us children text ∧
    around.length + 1 + Element.heightAll children ≤ maxNesting ∧
    run (placed { current with earlier := children.reverse ++ current.earlier,
                               text := current.text ++ text : OpenElement }.element around) rest = .ok (afterRoot root)

theorem endsElement_of_attributes {name : String} {span : Span} {around : List OpenElement}
    (hlt : around.length < maxNesting) (h : run (inTag { name, span } around .attrOrEnd) ts = .ok (afterRoot root))
    (hcontent : ∀ current rest, rest.length < ts.length →
      run (inContent current around) rest = .ok (afterRoot root) → EndsContent root current around rest) :
    EndsElement root name span around ts := by
  obtain ⟨as, attributes, ⟨_, stop⟩, rest, rfl, has, hdistinct, hrest⟩ :=
    attributes_of_run ts.length ts { name, span } (Nat.le_refl _) List.nodup_nil h
  rcases hrest with ⟨rfl, hrun⟩ | ⟨rfl, hrun⟩
  · exact ⟨_, rest, _, List.append_cons .., .selfClosed has hdistinct, by simpa [Element.height, Element.heightAll],
      by simpa [OpenElement.element] using hrun⟩
  · obtain ⟨us, rest, children, text, close, rfl, hus, hheight, hrun⟩ := hcontent _ rest (by simp; omega) hrun
    have hsplit : as ++ ⟨.tagEnd, stop⟩ :: (us ++ ⟨.closeTag name, close⟩ :: rest) =
        as ++ ⟨.tagEnd, stop⟩ :: (us ++ [⟨.closeTag name, close⟩]) ++ rest := by simp
    refine ⟨_, rest, _, hsplit, .enclosing has hdistinct hus, ?_, by simpa [OpenElement.element] using hrun⟩
    simp only [Element.height]
    omega

/-- An assembly that gets as far as a root has read whole elements and content. The induction is on a bound
    of the number of tokens, for elements and for content at once. -/
theorem element_of_run (n : Nat) :
    (∀ (ts : List Token) (name : String) (span : Span) (around : List OpenElement), ts.length ≤ n →
      around.length < maxNesting → run (inTag { name, span } around .attrOrEnd) ts = .ok (afterRoot root) →
      EndsElement root name span around ts) ∧
    (∀ (ts : List Token) (current : OpenElement) (around : List OpenElement), ts.length ≤ n →
      around.length < maxNesting → run (inContent current around) ts = .ok (afterRoot root) →
      EndsContent root current around ts) := by
  induction n with
  | zero =>
    refine ⟨fun ts name span around hlen _ h => ?_, fun ts current around hlen _ h => ?_⟩
    all_goals
      obtain ⟨t, rest, -, rfl, -, -⟩ := exists_token_of_run h (by simp)
      simp at hlen
  | succ n ih =>
    obtain ⟨ihelement, ihcontent⟩ := ih
    refine ⟨fun ts name span around hlen hlt h => ?_, fun ts current around hlen hlt h => ?_⟩
    · exact endsElement_of_attributes hlt h fun current rest hrest hrun =>
        ihcontent rest current around (by omega) hlt hrun
    · obtain ⟨⟨lexeme, s⟩, rest, m, rfl, hstep, hrun⟩ := exists_token_of_run h (by simp)
      simp only [List.length_cons, Nat.add_le_add_iff_right] at hlen
      rcases step_inContent_inv hstep with ⟨name, rfl, hroom, rfl⟩ | ⟨raw, rfl, rfl⟩ | ⟨rfl, rfl⟩
      · obtain ⟨us, rest, e, rfl, he, hheight, hrun⟩ := ihelement rest name s (current :: around) hlen hroom hrun
        simp only [List.length_append] at hlen
        obtain ⟨vs, rest, children, text, stop, rfl, hvs, hheights, hrun⟩ :=
          ihcontent rest { current with earlier := e :: current.earlier } around (by omega) hlt hrun
        refine ⟨_, rest, _, text, stop, ?_, .child he hvs, ?_,
          by simpa [OpenElement.element] using hrun⟩
        · rw [List.cons_append, List.cons_append, List.append_assoc]
        · simp only [List.length_cons] at hheight
          simp only [Element.heightAll]
          omega
      · obtain ⟨us, rest, children, text, stop, rfl, hus, hheights, hrun⟩ := ihcontent rest _ around hlen hlt hrun
        exact ⟨_, rest, children, _, stop, rfl, .text hus, hheights, by simpa [String.append_assoc] using hrun⟩
      · exact ⟨[], rest, [], "", s, rfl, .nil, by simpa [Element.heightAll], by simpa using hrun⟩

/-! ### Around the root -/

theorem run_blanks {before : List Token} (hblank : Blanks before) (ha : a = beforeRoot ∨ ∃ e, a = afterRoot e) :
    run a (before ++ ts) = run a ts := by
  induction before with
  | nil => rfl
  | cons t before ih =>
    obtain ⟨⟨raw, ht, hraw⟩, hbefore⟩ := List.forall_mem_cons.mp hblank
    have hstep : step a t = .ok a := by
      rcases ha with rfl | ⟨e, rfl⟩ <;> simp [step, ht, hraw]
    rw [List.cons_append, run_cons_of_ok hstep, ih hbefore]

theorem blanks_of_run (h : run (afterRoot root) ts = .ok a) : Blanks ts ∧ a = afterRoot root := by
  induction ts with
  | nil =>
    cases h
    exact ⟨by simp [Blanks], rfl⟩
  | cons t ts ih =>
    obtain ⟨m, hstep, hrun⟩ := run_cons_eq_ok_iff.mp h
    obtain ⟨raw, ht, hraw, rfl⟩ := step_afterRoot_inv hstep
    obtain ⟨hblanks, rfl⟩ := ih hrun
    exact ⟨List.forall_mem_cons.mpr ⟨⟨raw, ht, hraw⟩, hblanks⟩, rfl⟩

theorem root_of_run (h : run beforeRoot ts = .ok (afterRoot root)) :
    ∃ before name span rest, ts = before ++ ⟨.openTag name, span⟩ :: rest ∧ Blanks before ∧
      run (inTag { name, span } [] .attrOrEnd) rest = .ok (afterRoot root) := by
  induction ts with
  | nil => cases h
  | cons t ts ih =>
    obtain ⟨⟨_, span⟩, rest, m, ht, hstep, hrun⟩ := exists_token_of_run h (by simp)
    cases ht
    rcases step_beforeRoot_inv hstep with ⟨name, rfl, rfl⟩ | ⟨raw, rfl, hraw, rfl⟩
    · exact ⟨[], name, span, ts, rfl, by simp [Blanks], hrun⟩
    · obtain ⟨before, name, s, rest, rfl, hblanks, hrest⟩ := ih hrun
      exact ⟨_ :: before, name, s, rest, rfl, List.forall_mem_cons.mpr ⟨⟨raw, rfl, hraw⟩, hblanks⟩, hrest⟩

theorem finish_eq_ok_iff : finish a = .ok root ↔ a = afterRoot root := by
  rcases a with _ | ⟨_, _, _ | _ | _⟩ | _ | _ <;> simp [finish]

end

end Assembly

section
variable {ts us before after : List Token} {e : Element}
open Assembly

theorem Element.ofTokens_eq : ofTokens ts = (run .beforeRoot ts).bind Assembly.finish := rfl

theorem Element.ofTokens_eq_ok_iff_run : ofTokens ts = .ok e ↔ run .beforeRoot ts = .ok (.afterRoot e) := by
  rw [ofTokens_eq]
  constructor
  · intro h
    obtain ⟨a, hrun, hfinish⟩ := bind_eq_ok_iff.mp h
    rwa [finish_eq_ok_iff.mp hfinish] at hrun
  · exact fun h => bind_eq_ok_iff.mpr ⟨_, h, finish_eq_ok_iff.mpr rfl⟩

/-- An element that is deeper than the nesting allows is refused. -/
theorem Element.ofTokens_of_tooDeep (hus : MakeElement us e) (hdeep : maxNesting < e.height) :
    ∃ span, ofTokens us = .error ⟨.tooDeep, some span⟩ := by
  obtain ⟨us, rfl, hleads⟩ := leads_element hus
  obtain ⟨span, hrun⟩ := (hleads [] (by decide) []).2 (by simpa using hdeep)
  refine ⟨span, ?_⟩
  rw [List.append_nil] at hrun
  rw [ofTokens_eq, run_cons_of_ok (a := .beforeRoot) rfl, hrun]
  rfl

/-- Tokens are put together to an element exactly if they make it, with nothing but blank texts around, and
    it is not too deep. -/
theorem Element.ofTokens_eq_ok_iff : ofTokens ts = .ok e ↔ ∃ before us after, ts = before ++ us ++ after ∧
    Blanks before ∧ MakeElement us e ∧ Blanks after ∧ e.height ≤ maxNesting := by
  rw [ofTokens_eq_ok_iff_run]
  constructor
  · intro h
    obtain ⟨before, name, span, rest, rfl, hbefore, hrest⟩ := root_of_run h
    obtain ⟨us, after, e', rfl, hus, hheight, hafter⟩ :=
      (element_of_run rest.length).1 rest name span [] (Nat.le_refl _) (by decide) hrest
    obtain ⟨hblanks, heq⟩ := blanks_of_run hafter
    cases heq
    exact ⟨before, _, after, by simp, hbefore, hus, hblanks, by simpa using hheight⟩
  · rintro ⟨before, us, after, rfl, hbefore, hus, hafter, hheight⟩
    obtain ⟨us, rfl, hleads⟩ := leads_element hus
    calc run .beforeRoot (before ++ (⟨.openTag e.name, e.span⟩ :: us) ++ after)
        = run .beforeRoot (⟨.openTag e.name, e.span⟩ :: (us ++ after)) := by
          rw [List.append_assoc, run_blanks hbefore (Or.inl rfl), List.cons_append]
      _ = run (.inTag { name := e.name, span := e.span } [] .attrOrEnd) (us ++ after) := run_cons_of_ok rfl
      _ = run (.afterRoot e) (after ++ []) := by rw [(hleads [] (by decide) after).1 (by simpa using hheight)]; simp [placed]
      _ = .ok (.afterRoot e) := by rw [run_blanks hafter (Or.inr ⟨e, rfl⟩)]; rfl

theorem Element.ofTokens_of_makeElement (hus : MakeElement us e) (hfit : e.height ≤ maxNesting) : ofTokens us = .ok e :=
  ofTokens_eq_ok_iff.mpr ⟨[], us, [], (List.append_nil us).symm, by simp [Blanks], hus, by simp [Blanks], hfit⟩

end

end TestSelection.Markup
