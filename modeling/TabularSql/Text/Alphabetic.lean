import TabularSql.Text.CodePoint

/-!
# Letters

The characters with the Unicode property `Alphabetic`. ASCII letters are tested first, so the table
is only consulted for the other characters.
-/

namespace TabularSql.Text

set_option autoImplicit false

def alphabeticRanges : CodeRanges := .ofRuns 0
  [(170, 0), (10, 0), (4, 0), (5, 22), (1, 30), (1, 457), (4, 11), (14, 4), (7, 0), (1, 0), (86, 0),
   (29, 17), (1, 1), (2, 3), (1, 0), (6, 0), (1, 2), (1, 0), (1, 19), (1, 82), (1, 138), (8, 165),
   (1, 37), (2, 0), (6, 40), (39, 13), (1, 0), (1, 1), (1, 1), (1, 0), (8, 26), (4, 3), (29, 10),
   (5, 55), (1, 6), (14, 101), (1, 7), (4, 7), (4, 2), (10, 2), (2, 0), (16, 47), (13, 100), (24, 32),
   (9, 1), (4, 0), (5, 23), (2, 18), (19, 24), (7, 10), (5, 23), (1, 6), (7, 0), (8, 41), (10, 11),
   (3, 6), (6, 75), (1, 15), (1, 2), (4, 14), (13, 18), (1, 7), (2, 1), (2, 21), (1, 6), (1, 0), (3, 3),
   (3, 7), (2, 1), (2, 1), (1, 0), (8, 0), (4, 1), (1, 4), (12, 1), (10, 0), (4, 2), (1, 5), (4, 1),
   (2, 21), (1, 6), (1, 1), (1, 1), (1, 1), (4, 4), (4, 1), (2, 1), (4, 0), (7, 3), (1, 0), (17, 5),
   (11, 2), (1, 8), (1, 2), (1, 21), (1, 6), (1, 1), (1, 4), (3, 8), (1, 2), (1, 1), (3, 0), (15, 3),
   (21, 3), (4, 2), (1, 7), (2, 1), (2, 21), (1, 6), (1, 1), (1, 4), (3, 7), (2, 1), (2, 1), (9, 1),
   (4, 1), (1, 4), (13, 0), (16, 1), (1, 5), (3, 2), (1, 3), (3, 1), (1, 0), (1, 1), (3, 1), (3, 2),
   (3, 11), (4, 4), (3, 2), (1, 2), (3, 0), (6, 0), (40, 12), (1, 2), (1, 22), (1, 15), (3, 7), (1, 2),
   (1, 2), (8, 1), (1, 2), (1, 1), (2, 3), (28, 3), (1, 7), (1, 2), (1, 22), (1, 9), (1, 4), (3, 7),
   (1, 2), (1, 2), (8, 1), (5, 2), (1, 3), (13, 2), (12, 12), (1, 2), (1, 40), (2, 7), (1, 2), (1, 2),
   (1, 0), (5, 3), (7, 4), (22, 5), (1, 2), (1, 17), (3, 23), (1, 8), (1, 0), (2, 6), (8, 5), (1, 0),
   (1, 7), (18, 1), (13, 57), (5, 6), (6, 0), (51, 1), (1, 0), (1, 4), (1, 23), (1, 0), (1, 18), (1, 2),
   (2, 4), (1, 0), (6, 0), (14, 3), (32, 0), (63, 7), (1, 35), (4, 18), (4, 15), (1, 35), (67, 54),
   (1, 0), (2, 4), (16, 63), (10, 3), (2, 37), (1, 0), (5, 0), (2, 42), (1, 332), (1, 3), (2, 6),
   (1, 0), (1, 3), (2, 40), (1, 3), (2, 32), (1, 3), (2, 6), (1, 0), (1, 3), (2, 14), (1, 56), (1, 3),
   (2, 66), (37, 15), (16, 85), (2, 5), (3, 619), (2, 16), (1, 25), (5, 74), (3, 10), (7, 19), (11, 20),
   (12, 19), (12, 12), (1, 2), (1, 1), (12, 51), (2, 18), (14, 0), (4, 0), (67, 88), (7, 42), (5, 69),
   (10, 30), (1, 11), (4, 8), (23, 29), (2, 4), (11, 43), (4, 25), (54, 27), (4, 62), (2, 19), (50, 0),
   (23, 1), (11, 2), (49, 51), (1, 14), (1, 7), (51, 41), (2, 3), (10, 43), (1, 10), (14, 54), (22, 2),
   (10, 35), (2, 10), (5, 42), (2, 2), (41, 3), (1, 5), (1, 1), (3, 0), (5, 191), (19, 33), (11, 277),
   (2, 5), (2, 37), (2, 5), (2, 7), (1, 0), (1, 0), (1, 0), (1, 30), (2, 52), (1, 6), (1, 0), (3, 2),
   (1, 6), (3, 3), (2, 5), (4, 12), (5, 2), (1, 6), (116, 0), (13, 0), (16, 12), (101, 0), (4, 0),
   (2, 9), (1, 0), (3, 4), (6, 0), (1, 0), (1, 0), (1, 3), (1, 10), (2, 3), (5, 4), (4, 0), (17, 40),
   (813, 51), (1814, 228), (6, 3), (3, 1), (12, 37), (1, 0), (5, 0), (2, 55), (7, 0), (16, 22), (9, 6),
   (1, 6), (1, 6), (1, 6), (1, 6), (1, 6), (1, 6), (1, 6), (1, 31), (47, 0), (469, 2), (25, 8), (7, 4),
   (2, 4), (4, 85), (6, 2), (1, 89), (1, 3), (5, 42), (1, 93), (17, 31), (48, 15), (512, 6591),
   (64, 22156), (67, 45), (2, 268), (3, 15), (10, 1), (20, 46), (5, 7), (3, 112), (39, 8), (2, 102),
   (2, 81), (20, 20), (1, 32), (24, 51), (12, 67), (1, 0), (44, 5), (3, 0), (1, 2), (10, 32), (5, 34),
   (13, 28), (3, 50), (1, 11), (15, 0), (16, 15), (10, 4), (1, 54), (9, 13), (18, 22), (3, 68), (1, 0),
   (1, 0), (24, 2), (2, 15), (2, 3), (11, 5), (2, 5), (2, 5), (9, 6), (1, 6), (1, 42), (1, 13),
   (6, 122), (21, 11171), (12, 22), (4, 48), (8452, 365), (2, 105), (38, 6), (12, 4), (5, 11), (1, 12),
   (1, 4), (1, 0), (1, 1), (1, 1), (1, 107), (33, 362), (18, 63), (2, 53), (40, 11), (116, 4), (1, 134),
   (36, 25), (6, 25), (11, 88), (3, 5), (2, 5), (2, 5), (2, 2), (35, 11), (1, 25), (1, 18), (1, 1),
   (1, 14), (2, 13), (34, 122), (69, 52), (267, 28), (3, 48), (47, 31), (13, 29), (5, 42), (5, 29),
   (2, 35), (4, 7), (1, 4), (42, 157), (18, 35), (4, 35), (4, 39), (8, 51), (12, 10), (1, 14), (1, 6),
   (1, 1), (1, 10), (1, 14), (1, 6), (1, 1), (3, 51), (12, 310), (9, 21), (10, 7), (24, 5), (1, 41),
   (1, 8), (69, 5), (2, 0), (1, 43), (1, 1), (3, 0), (2, 22), (10, 22), (9, 30), (65, 18), (1, 1),
   (10, 21), (10, 25), (6, 25), (38, 55), (6, 1), (64, 3), (1, 1), (5, 7), (1, 2), (1, 28), (42, 28),
   (3, 28), (35, 7), (1, 27), (27, 53), (10, 21), (10, 18), (13, 17), (110, 72), (55, 50), (13, 50),
   (13, 39), (34, 27), (3, 0), (5, 22), (250, 41), (1, 1), (3, 1), (16, 5), (50, 2), (3, 28), (10, 0),
   (8, 21), (42, 17), (46, 20), (27, 22), (9, 69), (43, 4), (10, 56), (9, 0), (13, 24), (23, 50),
   (17, 3), (8, 34), (3, 0), (9, 63), (1, 3), (9, 1), (10, 0), (1, 0), (35, 17), (1, 33), (2, 0),
   (6, 3), (62, 6), (1, 0), (1, 3), (1, 14), (1, 9), (7, 56), (23, 3), (1, 7), (2, 1), (2, 21), (1, 6),
   (1, 1), (1, 4), (3, 7), (2, 1), (2, 1), (3, 0), (6, 0), (5, 6), (28, 9), (1, 0), (2, 0), (1, 37),
   (1, 9), (1, 0), (2, 0), (1, 3), (1, 1), (3, 0), (1, 0), (44, 65), (1, 2), (1, 3), (20, 2), (30, 65),
   (2, 1), (1, 0), (184, 53), (2, 6), (25, 5), (34, 62), (1, 0), (3, 0), (59, 53), (2, 0), (71, 26),
   (2, 13), (21, 6), (185, 56), (103, 63), (31, 7), (2, 0), (2, 7), (1, 1), (1, 29), (1, 1), (2, 1),
   (2, 3), (93, 7), (2, 45), (2, 5), (1, 0), (1, 1), (27, 50), (2, 9), (17, 71), (5, 0), (18, 72),
   (103, 7), (88, 32), (31, 8), (1, 44), (1, 6), (1, 0), (49, 29), (2, 21), (1, 13), (73, 6), (1, 1),
   (1, 43), (3, 0), (1, 1), (1, 2), (1, 0), (2, 1), (24, 5), (1, 1), (1, 36), (1, 1), (1, 3), (1, 0),
   (23, 43), (260, 22), (9, 16), (1, 40), (3, 2), (111, 0), (79, 921), (102, 110), (17, 195),
   (2636, 96), (15, 1071), (17, 5), (25, 3994), (5, 582), (6841, 46), (1745, 568), (7, 30), (17, 78),
   (17, 29), (18, 47), (16, 3), (31, 20), (5, 18), (432, 44), (211, 63), (32, 24), (2, 24), (44, 74),
   (4, 56), (7, 16), (64, 1), (1, 0), (12, 6), (9, 7381), (41, 31), (97, 114), (8701, 3), (1, 6),
   (1, 1), (1, 290), (15, 0), (29, 2), (2, 0), (14, 3), (8, 395), (2308, 106), (5, 12), (3, 8), (7, 9),
   (4, 0), (5985, 84), (1, 70), (1, 1), (2, 0), (2, 1), (2, 3), (1, 11), (1, 0), (1, 6), (1, 64),
   (1, 3), (2, 7), (1, 6), (1, 27), (1, 3), (1, 4), (1, 0), (3, 6), (1, 339), (2, 24), (1, 24), (1, 30),
   (1, 24), (1, 30), (1, 24), (1, 30), (1, 24), (1, 30), (1, 24), (1, 7), (1844, 30), (6, 5), (213, 6),
   (1, 16), (2, 6), (1, 1), (1, 4), (5, 61), (33, 0), (112, 44), (10, 6), (16, 0), (321, 29), (18, 43),
   (484, 27), (228, 29), (2, 0), (207, 30), (1, 21), (8, 1), (224, 6), (1, 3), (1, 1), (1, 14),
   (1, 196), (59, 67), (3, 0), (3, 0), (1204, 3), (1, 26), (1, 1), (1, 0), (2, 0), (1, 9), (1, 3),
   (1, 0), (1, 0), (6, 0), (4, 0), (1, 0), (1, 0), (1, 2), (1, 1), (1, 0), (2, 0), (1, 0), (1, 0),
   (1, 0), (1, 0), (1, 1), (1, 0), (2, 3), (1, 6), (1, 3), (1, 3), (1, 0), (1, 9), (1, 16), (5, 2),
   (1, 4), (1, 16), (628, 25), (6, 25), (6, 25), (3702, 42719), (32, 4381), (2, 5773), (2, 7472),
   (15, 621), (2466, 541), (1506, 4938), (5, 8489)]

def isAlphabetic (char : Char) : Bool :=
  char.isAlpha || alphabeticRanges.has char

end TabularSql.Text
