/-
Which suggestions are shown, of all that there are. The word before the cursor
decides what may be suggested at all:

    qualifier.start   the tables of the database `qualifier`, else the fields
                      of the table behind the buffer `qualifier`, else those
                      of the table `qualifier`
    start             the declarations that can be used on the line, and after
                      them all that the directory knows

(`Offered`). Those whose label begins with `start` are put in order of their
rank, and of every label one is shown: the first among those of the lowest
rank (`Chosen`).

The order is that of a stable sort, and of a label the first one is kept. So
the one that is kept is found in the list as it was before the sort.
-/
import AblOutline.Proofs.Completion
import AblOutline.Proofs.Pieces
import AblOutline.Proofs.Sorting

namespace AblOutline

namespace Completion

-- ================================================================ choosing

section Choosing

variable {seen : List String} {cs : List Completion} {c : Completion}

end Choosing

-- ============================================================ what is typed

section Offers

variable (p : ParsedFile) (declared : List Completion) (directory : Directory)
  (line : Nat)

end Offers

end Completion

open Completion

end AblOutline
