/-!
# The moduli

One polynomial over GF(2) of degree 64 for each hash family. A modulus is written as a word whose
most significant bit is the coefficient of `x ^ 0` and whose least significant bit is the
coefficient of `x ^ 63`; the coefficient of `x ^ 64` is one and not written.
-/
namespace SeenStates.Polynomial

/-- The moduli, in the order of the families. -/
def moduli : Vector UInt64 131 := #v[
    0x911498AE0E66BAD6, 0xDA8A0BA66DAE0181, 0xC02F176B8F268D9F, 0xD617BB1220FC7812,
    0xC6FD951AD34F9F74, 0xDD1897BD991704D4, 0xF5394C541CBFD343, 0xB1DDED37B5C7B8F7,
    0xB713FF61039DC632, 0xDFB340CB2FB03D43, 0xBC3E7E4C5ECB76A3, 0xDBB4B1349CD7058A,
    0xF53E9DCB9E915CDF, 0xCA5F58E90DD01848, 0x80E7FF4406891AA1, 0xAB541BF881FA8571,
    0xBF274E07AC5499D5, 0x939B1EA933040A4E, 0xB791A595448D75B1, 0x8BF88D6EF85563A2,
    0xECB33EC339513A53, 0xFA2D3E722DB5208A, 0xB4E2058AAC479D24, 0xAFBD6474E7213B82,
    0x98C1694D14FFAEEF, 0xE188FB5C0A125E24, 0xFA71CC3865487D80, 0x891135F7C1C94569,
    0xCF77CDD16D22E3E6, 0xEB5E3A1D2E2BB4B5, 0x92F7F5B69CD00C55, 0xA9FBBE40CA3B9AE9,
    0x84A7B33D85295BDE, 0xEBD4680DBB6FDEE2, 0xA31FC46A0583B4D0, 0xA792C94F15DE3E49,
    0xD9D60A9FEFF4521A, 0x9227BA31DFDDA04B, 0xFB4C89C607CE162D, 0xA89B3B2E01479CC0,
    0xB35A0C2A28B89F7D, 0x91D0B700B99D9EC2, 0xF0646BBDA05020B0, 0xCB5D5F63CE043056,
    0xD276B6A04F42A1B8, 0xBC1A7A7DBFEB47A3, 0xE138ACFF7A963036, 0xED860223C1557EE7,
    0x9B2491E980150AB6, 0xE7E03DD8A5B4E59E, 0xAAA3F5EAC516783C, 0xFE78CC267A724180,
    0xC22519A21EDFAC64, 0xCDB2941933FEC60F, 0xC5F485551EF38AA1, 0xA19293D250BD3335,
    0xA4D4C215A50B7AFE, 0xC1155176406A5070, 0xECADAA8200E123EC, 0xBACFE629D58B2F08,
    0xDED991082148CB42, 0x9A0CCBE5DEAA88DB, 0x9A83246F342061BB, 0xB71482842297AB05,
    0xF2407EEB997592BD, 0xB7B43D4B5C4C4BCC, 0xB339A2568221FFE7, 0xDB4B6B379446EF9E,
    0xE43C205BB5C0B2B6, 0xE8E1D141F19D6DB0, 0xD19E8710A4EA1C86, 0x9704CECFA8D6D07B,
    0xB0A35716162C3F26, 0xA2A68C0CF56390AC, 0xE4A74BC601C95B46, 0xE668FFF675595E56,
    0xE0EA77EBE06FABBB, 0xA8BB94F585279523, 0xBEB667B42B684F21, 0xD7B65410189E28AF,
    0x85722037BEFFC5B9, 0xE7E7C5F773426204, 0xA5FD0CC8E060C6F4, 0xB8F91EE9065DCF95,
    0xB4047008040F8B50, 0xECB9AB6291C8CFCC, 0xE08BB9B70CAAD6DF, 0xD6E086A301D95D56,
    0xF6A808F5F3FB9DA3, 0xFA74B8A8EF86FBC5, 0xA0B6B33BA9E6381C, 0x8C78703427873DBB,
    0xC5516EA423011021, 0xB075CCE8528AE7E2, 0x92E4A37979E2B13B, 0xAFC9AB000ED81026,
    0xF1873F2A861A518A, 0xF885D6B35770192C, 0xD2A82F27F71F5F7E, 0xD5E7A4DD8BEB2D9F,
    0xBAB9E7E65DC23E0F, 0xD5FC877C0BDF5B85, 0xAB428169B9F31C02, 0xB7B1351F9266D3EA,
    0xFAD564914328F635, 0x9623ECB1000DB9BD, 0x88D371EC6644C892, 0xD0A71270573E271C,
    0xBD200D763F9D81B4, 0x8484FD96374BF2EA, 0xE0D0810749432294, 0x8EBE9DADC88658BA,
    0xF6268C58993AE542, 0xD6CC88FED0D359C9, 0xBCADDB8D40A16690, 0x92817C6DB421CBF6,
    0xAC63721120A371B5, 0xD6CC137FDCED0820, 0xF1C5FBAEBB617BD7, 0xAC35D78C765237A5,
    0xBD0A471FA9A23116, 0x943A7031B946A5AE, 0xE4E83520CB1AAEBB, 0xE92A4B73246DD124,
    0xAFC1E070787C4C86, 0xDFE84D42CF06286B, 0x8B29EC962E4B964B, 0x807EB5DE812EDE0F,
    0xA3CD71299C8B3BFD, 0x845B8031EF886F35, 0x91F5A5FA9C5515A5]

end SeenStates.Polynomial
