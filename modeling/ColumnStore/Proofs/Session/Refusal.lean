import ColumnStore.Proofs.Session.Course

/-!
# Refused Insertions

What the server has been told by the time an insertion is refused. A session that only
reads and a batch without room refuse before anything is sent. A record of another model,
or one with a value that its field does not take, is met when the turn of its batch has
come, and by then all batches before it have been sent and carried out.

## Theorems

* `Session.insertBatches_eq_build_iff`: When an insertion is refused, and what was sent.
* `Session.refused_after_sending`: A refusal of the second batch after the first one.
-/

namespace ColumnStore

namespace Session

open Exchange (Carries)

/-- An insertion is refused in three ways. Two of them leave the exchange as it was: the
    session only reads, or batches have no room. In the third one a batch cannot be put
    together, and what was sent are the statements of all the batches before it, each of
    which was carried out. So nothing was sent exactly if there is no batch before it. -/
theorem insertBatches_eq_build_iff (s : Session) (size : Nat) (records : List Record)
    (e e' : Exchange) (fault : Fault) :
    s.insertBatches size records e = (.error (.build fault), e') ↔
      (e' = e ∧ s.settings.readonly = true ∧ fault = .readOnlyDatabase s.name "INSERT") ∨
      (e' = e ∧ s.settings.readonly = false ∧ size = 0 ∧ fault = .emptyBatch) ∨
      (s.settings.readonly = false ∧ ∃ n r rs before batch after statements,
        size = n + 1 ∧ records = r :: rs ∧ pieces n records = before ++ batch :: after ∧
          before.mapM r.model.insert = .ok statements ∧ Carries s.mode statements e e' ∧
          e'.sent = e.sent ++ statements.map (fun statement => ⟨statement, true⟩) ∧
          statements.length = before.length ∧ r.model.insert batch = .error fault) := by
  cases hreadonly : s.settings.readonly with
  | true =>
    rw [insertBatches_of_readonly hreadonly]
    constructor
    · intro h
      cases h
      exact Or.inl ⟨rfl, rfl, rfl⟩
    · rintro (⟨rfl, -, rfl⟩ | ⟨-, h, -⟩ | ⟨h, -⟩)
      · rfl
      · cases h
      · cases h
  | false =>
    cases size with
    | zero =>
      rw [insertBatches_zero hreadonly]
      constructor
      · intro h
        cases h
        exact Or.inr (Or.inl ⟨rfl, rfl, rfl, rfl⟩)
      · rintro (⟨-, h, -⟩ | ⟨rfl, -, -, rfl⟩ | ⟨-, n, _, _, _, _, _, _, h, -⟩)
        · cases h
        · rfl
        · cases h
    | succ n =>
      cases records with
      | nil =>
        rw [insertBatches_nil hreadonly]
        constructor
        · intro h
          cases h
        · rintro (⟨-, h, -⟩ | ⟨-, -, h, -⟩ | ⟨-, _, _, _, _, _, _, _, -, h, -⟩) <;> cases h
      | cons r rs =>
        -- The refusal is one of a batch.
        have hbatches : s.insertBatches (n + 1) (r :: rs) e = (.error (.build fault), e') ↔
            (pieces n (r :: rs)).forM (s.insertBatch r.model) e =
              (.error (.build fault), e') := by
          rw [insertBatches_cons hreadonly]
          cases hrun : (pieces n (r :: rs)).forM (s.insertBatch r.model) e with
          | mk result e'' =>
            cases result with
            | ok u =>
              constructor
              · intro h
                cases h
              · intro h
                cases h
            | error failure =>
              constructor
              · intro h
                cases h
                rfl
              · intro h
                cases h
                rfl
        rw [hbatches, forM_insertBatch_eq_build_iff]
        constructor
        · rintro ⟨before, batch, after, statements, hpieces, hbefore, hcarries, hrefused⟩
          exact Or.inr (Or.inr ⟨rfl, n, r, rs, before, batch, after, statements, rfl, rfl, hpieces,
            hbefore, hcarries, hcarries.sent_eq, length_statements hbefore, hrefused⟩)
        · rintro (⟨-, h, -⟩ | ⟨-, -, h, -⟩ | ⟨-, n', r', rs', before, batch, after, statements, hn,
            hr, hpieces, hbefore, hcarries, -, -, hrefused⟩)
          · cases h
          · cases h
          · cases hn
            cases hr
            exact ⟨before, batch, after, statements, hpieces, hbefore, hcarries, hrefused⟩

/-- A model of one field of texts. -/
def oneText (table : String) (h : Model.check table [{ name := "x", type := .string }] = .ok ()) :
    Model :=
  ⟨table, [{ name := "x", type := .string }], none, false, h⟩

/-- Two records of different models. -/
def strangers : List Record :=
  [.new (oneText "a" rfl), .new (oneText "b" rfl)]

/-- Two records of different models, in batches of one: whichever way responses are read,
    the second record is refused when the first one has been sent. -/
theorem refused_after_sending :
    (Session.mk .blocking .usual).insertBatches 1 strangers {} =
        (.error (.build (.foreignRecord "b" "a")),
          ⟨[⟨⟨"INSERT INTO \x60a\x60 (\x60x\x60) VALUES ('')", false⟩, true⟩], []⟩) ∧
      (Session.mk .streaming .usual).insertBatches 1 strangers {} =
        (.error (.build (.foreignRecord "b" "a")),
          ⟨[⟨⟨"INSERT INTO \x60a\x60 (\x60x\x60) VALUES ('')", false⟩, true⟩], []⟩) := by
  have hpieces : pieces 0 strangers = [[.new (oneText "a" rfl)], [.new (oneText "b" rfl)]] := by
    simp only [strangers, pieces, List.take_zero, List.drop_zero]
  rw [strangers] at hpieces ⊢
  constructor
  · rw [insertBatches_cons rfl, hpieces]
    rfl
  · rw [insertBatches_cons rfl, hpieces]
    rfl

end Session

end ColumnStore
