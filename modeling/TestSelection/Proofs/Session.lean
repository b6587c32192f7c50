import TestSelection.Proofs.Answers

/-! Sessions: calls in any order and through any handle that was given out, old ones and copies included. A
    call makes one chain longer by a part, or copies a handle, or changes nothing (`Session.ask_cases`).
    After every session each chain reads a root and the start of a clause, and each handle answers by where it
    stands (`Session.run_is_safe`). -/

namespace TestSelection

theorem Chain.Spells.kinds {c : Chain} {ps : List Part} (h : c.Spells ps) :
    c.nodes.toList.map (·.kind) = .root :: ps.map Part.kind := by
  refine List.ext_getElem? fun id => ?_
  have hnode : c.nodes.toList[id]? = nodeAt ps id := by simpa [Chain.get?] using h id
  rw [List.getElem?_map, hnode]
  cases id with
  | zero => rfl
  | succ up => simp [nodeAt, Function.comp_def, Part.node]

/-- A bench, and the handles that were given out, in this order. -/
structure Session where
  bench : Bench := {}
  handles : List Handle := []

/-- A new chain is begun, or one of the handles is asked. -/
inductive Call where
  | begin
  | ask (i : Nat) (r : Request)

namespace Session

/-- Asks a handle, and keeps the handle that it answers with. -/
def ask (s : Session) (h : Handle) (r : Request) (hr : r.fits h.place = true) : Session :=
  match s.bench.answer h r hr with
  | .ok (b, .handle h') => ⟨b, s.handles ++ [h']⟩
  | .ok (b, .document _) => ⟨b, s.handles⟩
  | .error _ => s

/-- One call. There are no calls on handles that were not given out, nor with requests that do not fit. -/
def step (s : Session) : Call → Session
  | .begin => ⟨s.bench.begin.1, s.handles ++ [s.bench.begin.2]⟩
  | .ask i r =>
    match s.handles[i]? with
    | none => s
    | some h => if hr : r.fits h.place = true then s.ask h r hr else s

def run (calls : List Call) : Session := calls.foldl step {}

section
variable {s : Session} {calls : List Call} {call : Call} {h : Handle} {r : Request} {i j : Nat}

theorem run_concat : run (calls ++ [call]) = (run calls).step call := by
  simp [run]

theorem step_ask (hh : s.handles[i]? = some h) (hr : r.fits h.place = true) : s.step (.ask i r) = s.ask h r hr := by
  simp [step, hh, hr]

theorem ask_of_error {e : FilterError} {hr : r.fits h.place = true} (he : s.bench.answer h r hr = .error e) :
    s.ask h r hr = s := by
  rw [ask, he]

/-- What a call makes of a session: a chain is longer by a part, or only a handle was copied, or nothing
    changes. -/
theorem ask_cases (s : Session) (hr : r.fits h.place = true) :
    (∃ p b' h', r.part? = some p ∧ s.bench.attach h (p.node h.node) p.place = .ok (b', h') ∧
      s.ask h r hr = ⟨b', s.handles ++ [h']⟩) ∨
    s.ask h r hr = ⟨s.bench, s.handles ++ [h]⟩ ∨ s.ask h r hr = s := by
  cases ha : s.bench.answer h r hr with
  | error e => exact Or.inr (Or.inr (ask_of_error ha))
  | ok a =>
    obtain ⟨b', a⟩ := a
    rcases Bench.answer_cases hr ha with ⟨p, h', hp, hatt, rfl⟩ | ⟨rfl, rfl | ⟨d, rfl⟩⟩
    · exact Or.inl ⟨p, b', h', hp, hatt, by rw [ask, ha]⟩
    · exact Or.inr (Or.inl (by rw [ask, ha]))
    · exact Or.inr (Or.inr (by rw [ask, ha]))

theorem get?_ask (s : Session) (hr : r.fits h.place = true) (hj : j ≠ h.chain) :
    (s.ask h r hr).bench.chains[j]? = s.bench.chains[j]? := by
  rcases s.ask_cases hr with ⟨p, b', h', -, hatt, hask⟩ | hask | hask <;> rw [hask]
  obtain ⟨c', id, -, rfl, -⟩ := Bench.attach_eq_ok_iff.mp hatt
  simp [Ne.symm hj]

theorem ask_build (hr : Request.build.fits h.place = true) : s.ask h .build hr = s := by
  cases hd : s.bench.build h <;> simp [ask, Bench.answer, hd, Except.map]

/-- Calls lead to the bench of a session, and its handles are given out on the way. -/
def Sound (s : Session) : Prop := ∃ hs, s.bench.Reachable hs ∧ ∀ h ∈ s.handles, h ∈ hs

theorem Sound.ask (hs : s.Sound) (hh : h ∈ s.handles) (hr : r.fits h.place = true) : (s.ask h r hr).Sound := by
  obtain ⟨hs, reach, hmem⟩ := hs
  rcases s.ask_cases hr with ⟨p, b', h', hp, hatt, hask⟩ | hask | hask <;> rw [hask]
  · refine ⟨h' :: hs, reach.attach (hmem h hh) (Request.follows_of_fits hr hp) hatt, ?_⟩
    exact List.forall_mem_append.mpr ⟨fun g hg => List.mem_cons_of_mem _ (hmem g hg),
      List.forall_mem_singleton.mpr List.mem_cons_self⟩
  · exact ⟨hs, reach, List.forall_mem_append.mpr ⟨hmem, List.forall_mem_singleton.mpr (hmem h hh)⟩⟩
  · exact ⟨hs, reach, hmem⟩

theorem Sound.step (hs : s.Sound) (call : Call) : (s.step call).Sound := by
  cases call with
  | begin =>
    obtain ⟨hs, reach, hmem⟩ := hs
    refine ⟨_, reach.begin, List.forall_mem_append.mpr ⟨fun g hg => List.mem_cons_of_mem _ (hmem g hg), ?_⟩⟩
    exact List.forall_mem_singleton.mpr List.mem_cons_self
  | ask i r =>
    cases hh : s.handles[i]? with
    | none => simpa [Session.step, hh] using hs
    | some h =>
      by_cases hr : r.fits h.place = true
      · rw [step_ask hh hr]
        exact hs.ask (List.mem_of_getElem? hh) hr
      · simpa [Session.step, hh, hr] using hs

theorem sound_run (calls : List Call) : (run calls).Sound := by
  induction calls using List.reverseRecOn with
  | nil => exact ⟨[], .empty, by simp [run]⟩
  | append_singleton calls call ih =>
    rw [run_concat]
    exact ih.step call

/-- However calls are made, each chain reads a root and the start of a clause, and each handle that was given
    out answers by where it stands. A call that fails and one that builds change nothing, and a call changes
    no chain but the one of its handle. -/
theorem run_is_safe (calls : List Call) :
    (∀ (j : Nat) (c : Chain), (run calls).bench.chains[j]? = some c → ∃ ks word,
      c.nodes.toList.map (·.kind) = .root :: ks ∧ ks <+: word ∧ ReadsClause word) ∧
    (∀ h ∈ (run calls).handles, ∃ c n, (run calls).bench.chains[h.chain]? = some c ∧ c.get? h.node = some n ∧
      (run calls).bench.Answers h c n) ∧
    (∀ (i : Nat) (h : Handle) (r : Request) (hr : r.fits h.place = true), (run calls).handles[i]? = some h →
      (∀ e, (run calls).bench.answer h r hr = .error e → run (calls ++ [.ask i r]) = run calls) ∧
      run (calls ++ [.ask i .build]) = run calls ∧
      ∀ j, j ≠ h.chain → (run (calls ++ [.ask i r])).bench.chains[j]? = (run calls).bench.chains[j]?) ∧
    ∀ (j : Nat) (c : Chain), (run calls).bench.chains[j]? = some c → (run (calls ++ [.begin])).bench.chains[j]? = some c := by
  obtain ⟨hs, reach, hmem⟩ := sound_run calls
  refine ⟨fun j c hc => ?_, fun h hh => ?_, fun i h r hr hi => ⟨fun e he => ?_, ?_, fun j hj => ?_⟩, fun j c hc => ?_⟩
  · obtain ⟨ps, place, hps, hfl⟩ := reach.fluent hc
    obtain ⟨word, hword, hprefix⟩ := hfl.exists_clause
    exact ⟨_, word, hps.kinds, hprefix, hword⟩
  · obtain ⟨c, n, hc, hn⟩ := (reach.stands h (hmem h hh)).exists_node
    exact ⟨c, n, hc, hn, (reach.stands h (hmem h hh)).answers hc hn⟩
  · rw [run_concat, step_ask hi hr, ask_of_error he]
  · rw [run_concat, step_ask hi rfl, ask_build]
  · rw [run_concat, step_ask hi hr, get?_ask _ hr hj]
  · have hlt := (Array.getElem?_eq_some_iff.mp hc).1
    simpa [run_concat, step, Bench.begin, Array.getElem?_push, Nat.ne_of_lt hlt] using hc

-- The root is asked twice through one handle, and once more through a copy: only the first call adds a node.
example : (run [.begin, .ask 0 .negate, .ask 0 .copy, .ask 0 .negate, .ask 2 .negate]).handles =
    [⟨.root, 0, 0⟩, ⟨.negation, 0, 1⟩, ⟨.root, 0, 0⟩] := by
  rfl

end

end Session

end TestSelection
