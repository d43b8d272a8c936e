import ScriptEngine.Text.Casing

namespace ScriptEngine.Text

/-!
# Data of the normal forms

Composed characters with the pair each is made of, characters with another
canonical or compatible spelling, and the classes by which marks are ordered.

Spellings stand in rows.  A row has the code point of its first character, and a word
for this and for every following character: what the character is spelled as, with an
open box for a blank, or the replacement mark for a character without a spelling.  Two
characters with a dash between them are words for all characters from one to the other,
and a star with a count behind a word repeats it.
-/

/-- Characters that are composed of a letter and a mark, by the mark: every word is a composed
character and its letter. -/
def compositionRows : List (Nat × String) :=
  [(0x300, "ÀA ÈE ÌI ÒO ÙU àa èe ìi òo ùu ǛÜ ǜü ǸN ǹn ЀЕ ЍИ ѐе ѝи ḔĒ ḕē ṐŌ ṑō ẀW ẁw ẦÂ ầâ ẰĂ ằă ỀÊ
      ềê ỒÔ ồô ỜƠ ờơ ỪƯ ừư ỲY ỳy ἂἀ ἃἁ ἊἈ ἋἉ ἒἐ ἓἑ ἚἘ ἛἙ ἢἠ ἣἡ ἪἨ ἫἩ ἲἰ ἳἱ ἺἸ ἻἹ ὂὀ ὃὁ ὊὈ ὋὉ ὒὐ ὓὑ
      ὛὙ ὢὠ ὣὡ ὪὨ ὫὩ ὰα ὲε ὴη ὶι ὸο ὺυ ὼω ᾺΑ ῈΕ ῊΗ ῍᾿ ῒϊ ῚΙ ῝῾ ῢϋ ῪΥ ῭¨ ῸΟ ῺΩ"),
    (0x301, "ÁA ÉE ÍI ÓO ÚU ÝY áa ée íi óo úu ýy ĆC ćc ĹL ĺl ŃN ńn ŔR ŕr ŚS śs ŹZ źz ǗÜ ǘü ǴG ǵg
      ǺÅ ǻå ǼÆ ǽæ ǾØ ǿø ΅¨ ΆΑ ΈΕ ΉΗ ΊΙ ΌΟ ΎΥ ΏΩ ΐϊ άα έε ήη ίι ΰϋ όο ύυ ώω ϓϒ ЃГ ЌК ѓг ќк ḈÇ ḉç ḖĒ
      ḗē ḮÏ ḯï ḰK ḱk ḾM ḿm ṌÕ ṍõ ṒŌ ṓō ṔP ṕp ṸŨ ṹũ ẂW ẃw ẤÂ ấâ ẮĂ ắă ẾÊ ếê ỐÔ ốô ỚƠ ớơ ỨƯ ứư ἄἀ ἅἁ
      ἌἈ ἍἉ ἔἐ ἕἑ ἜἘ ἝἙ ἤἠ ἥἡ ἬἨ ἭἩ ἴἰ ἵἱ ἼἸ ἽἹ ὄὀ ὅὁ ὌὈ ὍὉ ὔὐ ὕὑ ὝὙ ὤὠ ὥὡ ὬὨ ὭὩ ῎᾿ ῞῾"),
    (0x302, "ÂA ÊE ÎI ÔO ÛU âa êe îi ôo ûu ĈC ĉc ĜG ĝg ĤH ĥh ĴJ ĵj ŜS ŝs ŴW ŵw ŶY ŷy ẐZ ẑz ẬẠ ậạ
      ỆẸ ệẹ ỘỌ ộọ"),
    (0x303, "ÃA ÑN ÕO ãa ñn õo ĨI ĩi ŨU ũu ṼV ṽv ẪÂ ẫâ ẴĂ ẵă ẼE ẽe ỄÊ ễê ỖÔ ỗô ỠƠ ỡơ ỮƯ ữư ỸY ỹy"),
    (0x304, "ĀA āa ĒE ēe ĪI īi ŌO ōo ŪU ūu ǕÜ ǖü ǞÄ ǟä ǠȦ ǡȧ ǢÆ ǣæ ǬǪ ǭǫ ȪÖ ȫö ȬÕ ȭõ ȰȮ ȱȯ ȲY ȳy
      ӢИ ӣи ӮУ ӯу ḠG ḡg ḸḶ ḹḷ ṜṚ ṝṛ ᾱα ᾹΑ ῑι ῙΙ ῡυ ῩΥ"),
    (0x306, "ĂA ăa ĔE ĕe ĞG ğg ĬI ĭi ŎO ŏo ŬU ŭu ЎУ ЙИ йи ўу ӁЖ ӂж ӐА ӑа ӖЕ ӗе ḜȨ ḝȩ ẶẠ ặạ ᾰα ᾸΑ
      ῐι ῘΙ ῠυ ῨΥ"), (0x307, "ĊC ċc ĖE ėe ĠG ġg İI ŻZ żz ȦA ȧa ȮO ȯo ḂB ḃb ḊD ḋd ḞF ḟf ḢH ḣh ṀM ṁm
      ṄN ṅn ṖP ṗp ṘR ṙr ṠS ṡs ṤŚ ṥś ṦŠ ṧš ṨṢ ṩṣ ṪT ṫt ẆW ẇw ẊX ẋx ẎY ẏy ẛſ"),
    (0x308, "ÄA ËE ÏI ÖO ÜU äa ëe ïi öo üu ÿy ŸY ΪΙ ΫΥ ϊι ϋυ ϔϒ ЁЕ ЇІ ёе їі ӒА ӓа ӚӘ ӛә ӜЖ ӝж ӞЗ
      ӟз ӤИ ӥи ӦО ӧо ӪӨ ӫө ӬЭ ӭэ ӰУ ӱу ӴЧ ӵч ӸЫ ӹы ḦH ḧh ṎÕ ṏõ ṺŪ ṻū ẄW ẅw ẌX ẍx ẗt"),
    (0x309, "ẢA ảa ẨÂ ẩâ ẲĂ ẳă ẺE ẻe ỂÊ ểê ỈI ỉi ỎO ỏo ỔÔ ổô ỞƠ ởơ ỦU ủu ỬƯ ửư ỶY ỷy"),
    (0x30A, "ÅA åa ŮU ůu ẘw ẙy"), (0x30B, "ŐO őo ŰU űu ӲУ ӳу"),
    (0x30C, "ČC čc ĎD ďd ĚE ěe ĽL ľl ŇN ňn ŘR řr ŠS šs ŤT ťt ŽZ žz ǍA ǎa ǏI ǐi ǑO ǒo ǓU ǔu ǙÜ ǚü
      ǦG ǧg ǨK ǩk ǮƷ ǯʒ ǰj ȞH ȟh"), (0x30F, "ȀA ȁa ȄE ȅe ȈI ȉi ȌO ȍo ȐR ȑr ȔU ȕu ѶѴ ѷѵ"),
    (0x311, "ȂA ȃa ȆE ȇe ȊI ȋi ȎO ȏo ȒR ȓr ȖU ȗu"),
    (0x313, "ἀα ἈΑ ἐε ἘΕ ἠη ἨΗ ἰι ἸΙ ὀο ὈΟ ὐυ ὠω ὨΩ ῤρ"),
    (0x314, "ἁα ἉΑ ἑε ἙΕ ἡη ἩΗ ἱι ἹΙ ὁο ὉΟ ὑυ ὙΥ ὡω ὩΩ ῥρ ῬΡ"), (0x31B, "ƠO ơo ƯU ưu"),
    (0x323, "ḄB ḅb ḌD ḍd ḤH ḥh ḲK ḳk ḶL ḷl ṂM ṃm ṆN ṇn ṚR ṛr ṢS ṣs ṬT ṭt ṾV ṿv ẈW ẉw ẒZ ẓz ẠA ạa
      ẸE ẹe ỊI ịi ỌO ọo ỢƠ ợơ ỤU ụu ỰƯ ựư ỴY ỵy"), (0x324, "ṲU ṳu"), (0x325, "ḀA ḁa"),
    (0x326, "ȘS șs ȚT țt"),
    (0x327, "ÇC çc ĢG ģg ĶK ķk ĻL ļl ŅN ņn ŖR ŗr ŞS şs ŢT ţt ȨE ȩe ḐD ḑd ḨH ḩh"),
    (0x328, "ĄA ąa ĘE ęe ĮI įi ŲU ųu ǪO ǫo"), (0x32D, "ḒD ḓd ḘE ḙe ḼL ḽl ṊN ṋn ṰT ṱt ṶU ṷu"),
    (0x32E, "ḪH ḫh"), (0x330, "ḚE ḛe ḬI ḭi ṴU ṵu"),
    (0x331, "ḆB ḇb ḎD ḏd ḴK ḵk ḺL ḻl ṈN ṉn ṞR ṟr ṮT ṯt ẔZ ẕz ẖh"),
    (0x338, "↚← ↛→ ↮↔ ⇍⇐ ⇎⇔ ⇏⇒ ∄∃ ∉∈ ∌∋ ∤∣ ∦∥ ≁∼ ≄≃ ≇≅ ≉≈ ≠= ≢≡ ≭≍ ≮< ≯> ≰≤ ≱≥ ≴≲ ≵≳ ≸≶ ≹≷ ⊀≺ ⊁≻
      ⊄⊂ ⊅⊃ ⊈⊆ ⊉⊇ ⊬⊢ ⊭⊨ ⊮⊩ ⊯⊫ ⋠≼ ⋡≽ ⋢⊑ ⋣⊒ ⋪⊲ ⋫⊳ ⋬⊴ ⋭⊵"),
    (0x342, "ἆἀ ἇἁ ἎἈ ἏἉ ἦἠ ἧἡ ἮἨ ἯἩ ἶἰ ἷἱ ἾἸ ἿἹ ὖὐ ὗὑ ὟὙ ὦὠ ὧὡ ὮὨ ὯὩ ᾶα ῁¨ ῆη ῏᾿ ῖι ῗϊ ῟῾ ῦυ ῧϋ
      ῶω"), (0x345, "ᾀἀ ᾁἁ ᾂἂ ᾃἃ ᾄἄ ᾅἅ ᾆἆ ᾇἇ ᾈἈ ᾉἉ ᾊἊ ᾋἋ ᾌἌ ᾍἍ ᾎἎ ᾏἏ ᾐἠ ᾑἡ ᾒἢ ᾓἣ ᾔἤ ᾕἥ ᾖἦ ᾗἧ ᾘἨ ᾙἩ
      ᾚἪ ᾛἫ ᾜἬ ᾝἭ ᾞἮ ᾟἯ ᾠὠ ᾡὡ ᾢὢ ᾣὣ ᾤὤ ᾥὥ ᾦὦ ᾧὧ ᾨὨ ᾩὩ ᾪὪ ᾫὫ ᾬὬ ᾭὭ ᾮὮ ᾯὯ ᾲὰ ᾳα ᾴά ᾷᾶ ᾼΑ ῂὴ ῃη ῄή ῇῆ
      ῌΗ ῲὼ ῳω ῴώ ῷῶ ῼΩ"), (0x653, "آا"), (0x654, "أا ؤو ئي ۀە ۂہ ۓے"), (0x655, "إا"),
    (0x93C, "ऩन ऱर ऴळ"), (0x9BE, "\u09cb\u09c7"), (0x9D7, "\u09cc\u09c7"), (0xB3E, "\u0b4b\u0b47"),
    (0xB56, "\u0b48\u0b47"), (0xB57, "\u0b4c\u0b47"), (0xBBE, "\u0bca\u0bc6 \u0bcb\u0bc7"),
    (0xBD7, "ஔஒ \u0bcc\u0bc6"), (0xC56, "\u0c48\u0c46"), (0xCC2, "\u0cca\u0cc6"),
    (0xCD5, "\u0cc0\u0cbf \u0cc7\u0cc6 \u0ccb\u0cca"), (0xCD6, "\u0cc8\u0cc6"),
    (0xD3E, "\u0d4a\u0d46 \u0d4b\u0d47"), (0xD57, "\u0d4c\u0d46"),
    (0xDCA, "\u0dda\u0dd9 \u0ddd\u0ddc"), (0xDCF, "\u0ddc\u0dd9"), (0xDDF, "\u0dde\u0dd9"),
    (0x102E, "ဦဥ"),
    (0x1B35, "ᬆᬅ ᬈᬇ ᬊᬉ ᬌᬋ ᬎᬍ ᬒᬑ \u1b3b\u1b3a \u1b3d\u1b3c \u1b40\u1b3e \u1b41\u1b3f \u1b43\u1b42"),
    (0x3099, "がか ぎき ぐく げけ ごこ ざさ じし ずす ぜせ ぞそ だた ぢち づつ でて どと ばは びひ ぶふ べへ ぼほ ゔう ゞゝ ガカ ギキ グク ゲケ ゴコ ザサ
      ジシ ズス ゼセ ゾソ ダタ ヂチ ヅツ デテ ドト バハ ビヒ ブフ ベヘ ボホ ヴウ ヷワ ヸヰ ヹヱ ヺヲ ヾヽ"),
    (0x309A, "ぱは ぴひ ぷふ ぺへ ぽほ パハ ピヒ プフ ペヘ ポホ"), (0x110BA, "𑂚𑂙 𑂜𑂛 𑂫𑂥"), (0x11127, "𑄮𑄱 𑄯𑄲"),
    (0x1133E, "𑍋𑍇"), (0x11357, "𑍌𑍇"), (0x114B0, "𑒼𑒹"), (0x114BA, "𑒻𑒹"), (0x114BD, "𑒾𑒹"),
    (0x115AF, "𑖺𑖸 𑖻𑖹"), (0x11930, "𑤸𑤵")]

/-- Characters with a canonical spelling that is not composed again, in rows. -/
def canonicalRows : List (Nat × String) :=
  [(0x340, "\u0300 \u0301 � \u0313 \u0308\u0301"), (0x374, "ʹ"), (0x37E, ";"), (0x387, "·"),
    (0x958, "क\u093c ख\u093c ग\u093c ज\u093c ड\u093c ढ\u093c फ\u093c य\u093c"),
    (0x9DC, "ড\u09bc ঢ\u09bc � য\u09bc"), (0xA33, "ਲ\u0a3c � � ਸ\u0a3c"),
    (0xA59, "ਖ\u0a3c ਗ\u0a3c ਜ\u0a3c �*2 ਫ\u0a3c"), (0xB5C, "ଡ\u0b3c ଢ\u0b3c"),
    (0xF43, "ག\u0fb7"), (0xF4D, "ཌ\u0fb7 � � � � ད\u0fb7 � � � � བ\u0fb7 � � � � ཛ\u0fb7"),
    (0xF69, "ཀ\u0fb5"), (0xF73, "\u0f71\u0f72 � \u0f71\u0f74 \u0fb2\u0f80 � \u0fb3\u0f80"),
    (0xF81, "\u0f71\u0f80"), (0xF93, "\u0f92\u0fb7"),
    (0xF9D, "\u0f9c\u0fb7 �*4 \u0fa1\u0fb7 �*4 \u0fa6\u0fb7 �*4 \u0fab\u0fb7"),
    (0xFB9, "\u0f90\u0fb5"), (0x1F71, "ά � έ � ή � ί � ό � ύ � ώ"), (0x1FBB, "Ά � � ι"),
    (0x1FC9, "Έ � Ή"), (0x1FD3, "ΐ"), (0x1FDB, "Ί"), (0x1FE3, "ΰ"), (0x1FEB, "Ύ � � ΅ `"),
    (0x1FF9, "Ό � Ώ � ´ �*2 \u2002 \u2003"), (0x2126, "Ω � � � K Å"), (0x2329, "〈 〉"),
    (0x2ADC, "⫝\u0338"),
    (0xF900, "豈 更 車 賈 滑 串 句 龜*2 契 金 喇 奈 懶 癩 羅 蘿 螺 裸 邏 樂 洛 烙 珞 落 酪 駱 亂 卵 欄 爛 蘭 鸞 嵐 濫 藍 襤 拉 臘 蠟 廊 朗
      浪 狼 郎 來 冷 勞 擄 櫓 爐 盧 老 蘆 虜 路 露 魯 鷺 碌 祿 綠 菉 錄 鹿 論 壟 弄 籠 聾 牢 磊 賂 雷 壘 屢 樓 淚 漏 累 縷 陋 勒 肋 凜 凌 稜 綾
      菱 陵 讀 拏 樂 諾 丹 寧 怒 率 異 北 磻 便 復 不 泌 數 索 參 塞 省 葉 說 殺 辰 沈 拾 若 掠 略 亮 兩 凉 梁 糧 良 諒 量 勵 呂 女 廬 旅 濾 礪
      閭 驪 麗 黎 力 曆 歷 轢 年 憐 戀 撚 漣 煉 璉 秊 練 聯 輦 蓮 連 鍊 列 劣 咽 烈 裂 說 廉 念 捻 殮 簾 獵 令 囹 寧 嶺 怜 玲 瑩 羚 聆 鈴 零 靈
      領 例 禮 醴 隸 惡 了 僚 寮 尿 料 樂 燎 療 蓼 遼 龍 暈 阮 劉 杻 柳 流 溜 琉 留 硫 紐 類 六 戮 陸 倫 崙 淪 輪 律 慄 栗 率 隆 利 吏 履 易 李
      梨 泥 理 痢 罹 裏 裡 里 離 匿 溺 吝 燐 璘 藺 隣 鱗 麟 林 淋 臨 立 笠 粒 狀 炙 識 什 茶 刺 切 度 拓 糖 宅 洞 暴 輻 行 降 見 廓 兀 嗀 �*2
      塚 � 晴 �*2 凞 猪 益 礼 神 祥 福 靖 精 羽 � 蘒 � 諸 �*2 逸 都 �*3 飯 飼 館 鶴 郞 隷 侮 僧 免 勉 勤 卑 喝 嘆 器 塀 墨 層 屮 悔 慨
      憎 懲 敏 既 暑 梅 海 渚 漢 煮 爫 琢 碑 社 祉 祈 祐 祖 祝 禍 禎 穀 突 節 練 縉 繁 署 者 臭 艹*2 著 褐 視 謁 謹 賓 贈 辶 逸 難 響 頻 恵 𤋮
      舘 �*2 並 况 全 侀 充 冀 勇 勺 喝 啕 喙 嗢 塚 墳 奄 奔 婢 嬨 廒 廙 彩 徭 惘 慎 愈 憎 慠 懲 戴 揄 搜 摒 敖 晴 朗 望 杖 歹 殺 流 滛 滋 漢
      瀞 煮 瞧 爵 犯 猪 瑱 甆 画 瘝 瘟 益 盛 直 睊 着 磌 窱 節 类 絛 練 缾 者 荒 華 蝹 襁 覆 視 調 諸 請 謁 諾 諭 謹 變 贈 輸 遲 醙 鉶 陼 難 靖
      韛 響 頋 頻 鬒 龜 𢡊 𢡄 𣏕 㮝 䀘 䀹 𥉉 𥳐 𧻓 齃 龎"),
    (0xFB1D, "י\u05b4 � ײ\u05b7"),
    (0xFB2A, "ש\u05c1 ש\u05c2 שּ\u05c1 שּ\u05c2 א\u05b7 א\u05b8 א\u05bc ב\u05bc ג\u05bc ד\u05bc
      ה\u05bc ו\u05bc ז\u05bc � ט\u05bc י\u05bc ך\u05bc כ\u05bc ל\u05bc � מ\u05bc � נ\u05bc
      ס\u05bc � ף\u05bc פ\u05bc � צ\u05bc ק\u05bc ר\u05bc ש\u05bc ת\u05bc ו\u05b9 ב\u05bf כ\u05bf
      פ\u05bf"),
    (0x1D15E, "𝅗𝅥 𝅘𝅥 𝅘𝅥𝅮 𝅘𝅥𝅯 𝅘𝅥𝅰 𝅘𝅥𝅱 𝅘𝅥𝅲"), (0x1D1BB, "𝆹𝅥 𝆺𝅥 𝆹𝅥𝅮 𝆺𝅥𝅮 𝆹𝅥𝅯 𝆺𝅥𝅯"),
    (0x2F800, "丽 丸 乁 𠄢 你 侮 侻 倂 偺 備 僧 像 㒞 𠘺 免 兔 兤 具 𠔜 㒹 內 再 𠕋 冗 冤 仌 冬 况 𩇟 凵 刃 㓟 刻 剆 割 剷 㔕 勇 勉 勤 勺
      包 匆 北 卉 卑 博 即 卽 卿*3 𠨬 灰 及 叟 𠭣 叫 叱 吆 咞 吸 呈 周 咢 哶 唐 啓 啣 善*2 喙 喫 喳 嗂 圖 嘆 圗 噑 噴 切 壮 城 埴 堍 型 堲 報
      墬 𡓤 売 壷 夆 多 夢 奢 𡚨 𡛪 姬 娛 娧 姘 婦 㛮 㛼 嬈 嬾*2 𡧈 寃 寘 寧 寳 𡬘 寿 将 当 尢 㞁 屠 屮 峀 岍 𡷤 嵃 𡷦 嵮 嵫 嵼 巡 巢 㠯 巽 帨
      帽 幩 㡢 𢆃 㡼 庰 庳 庶 廊 𪎒 廾 𢌱*2 舁 弢*2 㣇 𣊸 𦇚 形 彫 㣣 徚 忍 志 忹 悁 㤺 㤜 悔 𢛔 惇 慈 慌 慎 慌 慺 憎 憲 憤 憯 懞 懲 懶 成 戛
      扝 抱 拔 捐 𢬌 挽 拼 捨 掃 揤 𢯱 搢 揅 掩 㨮 摩 摾 撝 摷 㩬 敏 敬 𣀊 旣 書 晉 㬙 暑 㬈 㫤 冒 冕 最 暜 肭 䏙 朗 望 朡 杞 杓 𣏃 㭉 柺 枅 桒
      梅 𣑭 梎 栟 椔 㮝 楂 榣 槪 檨 𣚣 櫛 㰘 次 𣢧 歔 㱎 歲 殟 殺 殻 𣪍 𡴋 𣫺 汎 𣲼 沿 泍 汧 洖 派 海 流 浩 浸 涅 𣴞 洴 港 湮 㴳 滋 滇 𣻑 淹 潮
      𣽞 𣾎 濆 瀹 瀞 瀛 㶖 灊 災 灷 炭 𠔥 煅 𤉣 熜 𤎫 爨 爵 牐 𤘈 犀 犕 𤜵 𤠔 獺 王 㺬 玥 㺸*2 瑇 瑜 瑱 璅 瓊 㼛 甤 𤰶 甾 𤲒 異 𢆟 瘐 𤾡 𤾸 𥁄
      㿼 䀈 直 𥃳 𥃲 𥄙 𥄳 眞 真*2 睊 䀹 瞋 䁆 䂖 𥐝 硎 碌 磌 䃣 𥘦 祖 𥚚 𥛅 福 秫 䄯 穀 穊 穏 𥥼 𥪧*2 竮 䈂 𥮫 篆 築 䈧 𥲀 糒 䊠 糨 糣 紀 𥾆
      絣 䌁 緇 縂 繅 䌴 𦈨 𦉇 䍙 𦋙 罺 𦌾 羕 翺 者 𦓚 𦔣 聠 𦖨 聰 𣍟 䏕 育 脃 䐋 脾 媵 𦞧 𦞵 𣎓 𣎜 舁 舄 辞 䑫 芑 芋 芝 劳 花 芳 芽 苦 𦬼 若 茝
      荣 莭 茣 莽 菧 著 荓 菊 菌 菜 𦰶 𦵫 𦳕 䔫 蓱 蓳 蔖 𧏊 蕤 𦼬 䕝 䕡 𦾱 𧃒 䕫 虐 虜 虧 虩 蚩 蚈 蜎 蛢 蝹 蜨 蝫 螆 䗗 蟡 蠁 䗹 衠 衣 𧙧 裗 裞
      䘵 裺 㒻 𧢮 𧥦 䚾 䛇 誠 諭 變 豕 𧲨 貫 賁 贛 起 𧼯 𠠄 跋 趼 跰 𠣞 軔 輸 𨗒 𨗭 邔 郱 鄑 𨜮 鄛 鈸 鋗 鋘 鉼 鏹 鐕 𨯺 開 䦕 閷 𨵷 䧦 雃 嶲 霣
      𩅅 𩈚 䩮 䩶 韠 𩐊 䪲 𩒖 頋*2 頩 𩖶 飢 䬳 餩 馧 駂 駾 䯎 𩬰 鬒 鱀 鳽 䳎 䳭 鵧 𪃎 䳸 𪄅 𪈎 𪊑 麻 䵖 黹 黾 鼅 鼏 鼖 鼻 𪘀")]

/-- Characters with a compatible spelling, in rows. -/
def compatibleRows : List (Nat × String) :=
  [(0xA0, "␣"),
    (0xA8, "␣\u0308 � a �*4 ␣\u0304 �*2 2 3 ␣\u0301 μ �*2 ␣\u0327 1 o � 1⁄4 1⁄2 3⁄4"),
    (0x132, "IJ ij"), (0x13F, "L· l·"), (0x149, "ʼn"), (0x17F, "s"),
    (0x1C4, "DŽ Dž dž LJ Lj lj NJ Nj nj"), (0x1F1, "DZ Dz dz"), (0x2B0, "h ɦ j r ɹ ɻ ʁ w y"),
    (0x2D8, "␣\u0306 ␣\u0307 ␣\u030a ␣\u0328 ␣\u0303 ␣\u030b �*2 ɣ l s x ʕ"), (0x37A, "␣\u0345"),
    (0x384, "␣\u0301"), (0x3D0, "β θ Υ � � φ π"), (0x3F0, "κ ρ ς � Θ ε � � � Σ"), (0x587, "եւ"),
    (0x675, "اٴ وٴ ۇٴ يٴ"), (0xE33, "\u0e4dา"), (0xEB3, "\u0ecdາ"), (0xEDC, "ຫນ ຫມ"),
    (0xF0C, "་"), (0xF77, "\u0fb2\u0f81 � \u0fb3\u0f81"), (0x10FC, "ნ"),
    (0x1D2C, "A Æ B � D E Ǝ G–N � O Ȣ P R T U W a ɐ ɑ ᴂ b d e ə ɛ ɜ g � k m ŋ o ɔ ᴖ ᴗ p t u ᴝ ɯ v
      ᴥ β γ δ φ χ i r u v β γ ρ φ χ"),
    (0x1D78, "н"),
    (0x1D9B, "ɒ c ɕ ð ɜ f ɟ ɡ ɥ ɨ ɩ ɪ ᵻ ʝ ɭ ᶅ ʟ ɱ ɰ ɲ–ɵ ɸ ʂ ʃ ƫ ʉ ʊ ᴜ ʋ ʌ z ʐ ʑ ʒ θ"),
    (0x1E9A, "aʾ"), (0x1FBD, "␣\u0313 � ␣\u0313 ␣\u0342"),
    (0x1FFE, "␣\u0314 �*3 ␣*9"), (0x2011, "‐"), (0x2017, "␣\u0333"),
    (0x2024, ". .. ..."), (0x202F, "␣ � � � ′′ ′′′ � ‵‵ ‵‵‵ � � � � !! � ␣\u0305"),
    (0x2047, "?? ?! !?"), (0x2057, "′′′′"), (0x205F, "␣"),
    (0x2070, "0 i �*2 4–9 + − = ( ) n 0–9 + − = ( ) � a e o x ə h k–n p s t"),
    (0x20A8, "Rs"),
    (0x2100, "a/c a/s C °C � c/o c/u Ɛ � °F g H*3 h ħ I I L l � N No �*2 P Q R*3 �*2 SM TEL TM �
      Z �*3 Z �*3 B C � e E F � M o א–ד i � FAX π γ Γ Π ∑ �*4 D d e i j"),
    (0x2150, "1⁄7 1⁄9 1⁄10 1⁄3 2⁄3 1⁄5 2⁄5 3⁄5 4⁄5 1⁄6 5⁄6 1⁄8 3⁄8 5⁄8 7⁄8 1⁄ I II III IV V VI
      VII VIII IX X XI XII L C D M i ii iii iv v vi vii viii ix x xi xii l c d m"),
    (0x2189, "0⁄3"), (0x222C, "∫∫ ∫∫∫ � ∮∮ ∮∮∮"),
    (0x2460, "1–9 10 11 12 13 14 15 16 17 18 19 20 (1) (2) (3) (4) (5) (6) (7) (8) (9) (10) (11)
      (12) (13) (14) (15) (16) (17) (18) (19) (20) 1. 2. 3. 4. 5. 6. 7. 8. 9. 10. 11. 12. 13. 14.
      15. 16. 17. 18. 19. 20. (a) (b) (c) (d) (e) (f) (g) (h) (i) (j) (k) (l) (m) (n) (o) (p) (q)
      (r) (s) (t) (u) (v) (w) (x) (y) (z) A–Z a–z 0"),
    (0x2A0C, "∫∫∫∫"), (0x2A74, "::= == ==="), (0x2C7C, "j V"), (0x2D6F, "ⵡ"), (0x2E9F, "母"),
    (0x2EF3, "龟"),
    (0x2F00, "一 丨 丶 丿 乙 亅 二 亠 人 儿 入 八 冂 冖 冫 几 凵 刀 力 勹 匕 匚 匸 十 卜 卩 厂 厶 又 口 囗 土 士 夂 夊 夕 大 女 子 宀 寸 小
      尢 尸 屮 山 巛 工 己 巾 干 幺 广 廴 廾 弋 弓 彐 彡 彳 心 戈 戶 手 支 攴 文 斗 斤 方 无 日 曰 月 木 欠 止 歹 殳 毋 比 毛 氏 气 水 火 爪 父
      爻 爿 片 牙 牛 犬 玄 玉 瓜 瓦 甘 生 用 田 疋 疒 癶 白 皮 皿 目 矛 矢 石 示 禸 禾 穴 立 竹 米 糸 缶 网 羊 羽 老 而 耒 耳 聿 肉 臣 自 至 臼
      舌 舛 舟 艮 色 艸 虍 虫 血 行 衣 襾 見 角 言 谷 豆 豕 豸 貝 赤 走 足 身 車 辛 辰 辵 邑 酉 釆 里 金 長 門 阜 隶 隹 雨 靑 非 面 革 韋 韭 音
      頁 風 飛 食 首 香 馬 骨 高 髟 鬥 鬯 鬲 鬼 魚 鳥 鹵 鹿 麥 麻 黃 黍 黑 黹 黽 鼎 鼓 鼠 鼻 齊 齒 龍 龜 龠"),
    (0x3000, "␣"), (0x3036, "〒 � 十 卄 卅"), (0x309B, "␣\u3099 ␣\u309a � � より"), (0x30FF, "コト"),
    (0x3131, "ᄀ ᄁ ᆪ ᄂ ᆬ ᆭ ᄃ ᄄ ᄅ ᆰ–ᆵ ᄚ ᄆ ᄇ ᄈ ᄡ ᄉ–ᄒ ᅡ–ᅵ ᅠ ᄔ ᄕ ᇇ ᇈ ᇌ ᇎ ᇓ ᇗ ᇙ ᄜ ᇝ ᇟ ᄝ ᄞ ᄠ ᄢ ᄣ ᄧ ᄩ ᄫ–ᄯ
      ᄲ ᄶ ᅀ ᅇ ᅌ ᇱ ᇲ ᅗ ᅘ ᅙ ᆄ ᆅ ᆈ ᆑ ᆒ ᆔ ᆞ ᆡ �*3 一 二 三 四 上 中 下 甲 乙 丙 丁 天 地 人"),
    (0x3200, "(ᄀ) (ᄂ) (ᄃ) (ᄅ) (ᄆ) (ᄇ) (ᄉ) (ᄋ) (ᄌ) (ᄎ) (ᄏ) (ᄐ) (ᄑ) (ᄒ) (가) (나) (다) (라) (마)
      (바) (사) (아) (자) (차) (카) (타) (파) (하) (주) (오전) (오후) � (一) (二) (三) (四) (五) (六)
      (七) (八) (九) (十) (月) (火) (水) (木) (金) (土) (日) (株) (有) (社) (名) (特) (財) (祝) (労) (代) (呼) (学) (監)
      (企) (資) (協) (祭) (休) (自) (至) 問 幼 文 箏"),
    (0x3250, "PTE 21 22 23 24 25 26 27 28 29 30 31 32 33 34 35 ᄀ ᄂ ᄃ ᄅ ᄆ ᄇ ᄉ ᄋ ᄌ ᄎ–ᄒ 가 나 다 라
      마 바 사 아 자 차 카 타 파 하 참고 주의 우 � 一 二 三 四 五 六 七 八 九 十 月 火 水 木 金 土 日 株 有 社 名 特 財
      祝 労 秘 男 女 適 優 印 注 項 休 写 正 上 中 下 左 右 医 宗 学 監 企 資 協 夜 36 37 38 39 40 41 42 43 44 45 46 47 48
      49 50 1月 2月 3月 4月 5月 6月 7月 8月 9月 10月 11月 12月 Hg erg eV LTD ア イ ウ エ オ カ キ ク ケ コ サ シ ス セ ソ タ
      チ ツ テ ト ナ–ハ ヒ フ ヘ ホ マ–モ ヤ ユ ヨ–ロ ワ–ヲ 令和 アパート アルファ アンペア アール イニング インチ ウォン エスクード エーカー オンス オーム
      カイリ カラット カロリー ガロン ガンマ ギガ ギニー キュリー ギルダー キロ キログラム キロメートル キロワット グラム グラムトン クルゼイロ クローネ ケース コルナ
      コーポ サイクル サンチーム シリング センチ セント ダース デシ ドル トン ナノ ノット ハイツ パーセント パーツ バーレル ピアストル ピクル ピコ ビル ファラッド
      フィート ブッシェル フラン ヘクタール ペソ ペニヒ ヘルツ ペンス ページ ベータ ポイント ボルト ホン ポンド ホール ホーン マイクロ マイル マッハ マルク マンション
      ミクロン ミリ ミリバール メガ メガトン メートル ヤード ヤール ユアン リットル リラ ルピー ルーブル レム レントゲン ワット 0点 1点 2点 3点 4点 5点 6点
      7点 8点 9点 10点 11点 12点 13点 14点 15点 16点 17点 18点 19点 20点 21点 22点 23点 24点 hPa da AU bar oV pc dm
      dm² dm³ IU 平成 昭和 大正 明治 株式会社 pA nA μA mA kA KB MB GB cal kcal pF nF μF μg mg kg Hz kHz MHz
      GHz THz μℓ mℓ dℓ kℓ fm nm μm mm cm km mm² cm² m² km² mm³ cm³ m³ km³ m∕s m∕s² Pa kPa MPa GPa
      rad rad∕s rad∕s² ps ns μs ms pV nV μV mV kV MV pW nW μW mW kW MW kΩ MΩ a.m. Bq cc cd C∕kg
      Co. dB Gy ha HP in KK KM kt lm ln log lx mb mil mol PH p.m. PPM PR sr Sv Wb V∕m A∕m 1日 2日
      3日 4日 5日 6日 7日 8日 9日 10日 11日 12日 13日 14日 15日 16日 17日 18日 19日 20日 21日 22日 23日 24日 25日 26日
      27日 28日 29日 30日 31日 gal"),
    (0xA69C, "ъ ь"), (0xA770, "ꝯ"), (0xA7F2, "C F Q � � � Ħ œ"), (0xAB5C, "ꜧ ꬷ ɫ ꭒ"),
    (0xAB69, "ʍ"), (0xFB00, "ff fi fl ffi ffl ſt st"), (0xFB13, "մն մե մի վն մխ"),
    (0xFB20, "ע א ד ה כ ל ם ר ת +"),
    (0xFB4F, "אל ٱ*2 ٻ*4 پ*4 ڀ*4 ٺ*4 ٿ*4 ٹ*4 ڤ*4 ڦ*4 ڄ*4 ڃ*4 چ*4 ڇ*4 ڍ*2 ڌ*2 ڎ*2 ڈ*2 ژ*2 ڑ*2 ک*4
      گ*4 ڳ*4 ڱ*4 ں*2 ڻ*4 ۀ*2 ہ*4 ھ*4 ے*2 ۓ*2"),
    (0xFBD3, "ڭ*4 ۇ*2 ۆ*2 ۈ*2 ٷ ۋ*2 ۅ*2 ۉ*2 ې*4 ى*2 ئا*2 ئە*2 ئو*2 ئۇ*2 ئۆ*2 ئۈ*2 ئې*3 ئى*3 ی*4
      ئج ئح ئم ئى ئي بج بح بخ بم بى بي تج تح تخ تم تى تي ثج ثم ثى ثي جح جم حج حم خج خح خم سج سح
      سخ سم صح صم ضج ضح ضخ ضم طح طم ظم عج عم غج غم فج فح فخ فم فى في قح قم قى قي كا كج كح كخ كل
      كم كى كي لج لح لخ لم لى لي مج مح مخ مم مى مي نج نح نخ نم نى ني هج هم هى هي يج يح يخ يم يى
      يي ذ\u0670 ر\u0670 ى\u0670 ␣\u064c\u0651 ␣\u064d\u0651 ␣\u064e\u0651 ␣\u064f\u0651
      ␣\u0650\u0651 ␣\u0651\u0670 ئر ئز ئم ئن ئى ئي بر بز بم بن بى بي تر تز تم تن تى تي ثر ثز ثم
      ثن ثى ثي فى في قى قي كا كل كم كى كي لم لى لي ما مم نر نز نم نن نى ني ى\u0670 ير يز يم ين يى
      يي ئج ئح ئخ ئم ئه بج بح بخ بم به تج تح تخ تم ته ثم جح جم حج حم خج خم سج سح سخ سم صح صخ صم
      ضج ضح ضخ ضم طح ظم عج عم غج غم فج فح فخ فم قح قم كج كح كخ كل كم لج لح لخ لم له مج مح مخ مم
      نج نح نخ نم نه هج هم ه\u0670 يج يح يخ يم يه ئم ئه بم به تم ته ثم ثه سم سه شم شه كل كم لم نم
      نه يم يه ـ\u064e\u0651 ـ\u064f\u0651 ـ\u0650\u0651 طى طي عى عي غى غي سى سي شى شي حى حي جى
      جي خى خي صى صي ضى ضي شج شح شخ شم شر سر صر ضر طى طي عى عي غى غي سى سي شى شي حى حي جى جي خى
      خي صى صي ضى ضي شج شح شخ شم شر سر صر ضر شج شح شخ شم سه شه طم سج سح سخ شج شح شخ طم ظم
      ا\u064b*2"),
    (0xFD50, "تجم تحج*2 تحم تخم تمج تمح تمخ جمح*2 حمي حمى سحج سجح سجى سمح*2 سمج سمم*2 صحح*2 صمم
      شحم*2 شجي شمخ*2 شمم*2 ضحى ضخم*2 طمح*2 طمم طمي عجم عمم*2 عمى غمم غمي غمى فخم*2 قمح قمم لحم
      لحي لحى لجج*2 لخم*2 لمح*2 محج محم محي مجح مجم مخج مخم �*2 مجخ همج همم نحم نحى نجم*2 نجى نمي
      نمى يمم*2 بخي تجي تجى تخي تخى تمي تمى جمي جحى جمى سخى صحي شحي ضحي لجي لمي يحي يجي يمي ممي
      قمي نحي قمح لحم عمي كمي نجح مخي لجم كمم لجم نجح جحي حجي مجي فمي بحي كمم عجم صمم سخي نجي"),
    (0xFDF0, "صلے قلے الله اكبر محمد صلعم رسول عليه وسلم صلى صلى␣الله␣عليه␣وسلم جل␣جلاله ریال"),
    (0xFE10, ", 、 。 : ; ! ? 〖 〗 …"),
    (0xFE30, "‥ — – _ _ ( ) \x7b \x7d 〔 〕 【 】 《 》 〈 〉 「 」 『 』 � � [ ] ‾ ‾ ‾ ‾ _ _ _ , 、 . � ; : ?
      ! — ( ) \x7b \x7d 〔 〕 # & * + - < > = � \\ $ % @ � � � � ␣\u064b ـ\u064b ␣\u064c � ␣\u064d
      � ␣\u064e ـ\u064e ␣\u064f ـ\u064f ␣\u0650 ـ\u0650 ␣\u0651 ـ\u0651 ␣\u0652 ـ\u0652 ء آ آ أ أ
      ؤ ؤ إ إ ئ ئ ئ ئ ا ا ب ب ب ب ة ة ت ت ت ت ث ث ث ث ج ج ج ج ح ح ح ح خ خ خ خ د د ذ ذ ر ر ز ز س س
      س س ش ش ش ش ص ص ص ص ض ض ض ض ط ط ط ط ظ ظ ظ ظ ع ع ع ع غ غ غ غ ف ف ف ف ق ق ق ق ك ك ك ك ل ل ل ل
      م م م م ن ن ن ن ه ه ه ه و و ى ى ي ي ي ي لآ لآ لأ لأ لإ لإ لا لا � � � � ! \" # $ % & ' ( )
      * + , - . / 0 1 2 3 4 5 6 7 8 9 : ; < = > ? @ A B C D E F G H I J K L M N O P Q R S T U V W
      X Y Z [ \\ ] ^ _ ` a b c d e f g h i j k l m n o p q r s t u v w x y z \x7b | \x7d ~ ⦅ ⦆ 。
      「 」 、 ・ ヲ ァ ィ ゥ ェ ォ ャ ュ ョ ッ ー ア イ ウ エ オ カ キ ク ケ コ サ シ ス セ ソ タ チ ツ テ ト ナ ニ ヌ ネ ノ ハ ヒ フ ヘ ホ マ
      ミ ム メ モ ヤ ユ ヨ ラ リ ル レ ロ ワ ン \u3099 \u309a ㅤ ㄱ ㄲ ㄳ ㄴ ㄵ ㄶ ㄷ ㄸ ㄹ ㄺ ㄻ ㄼ ㄽ ㄾ ㄿ ㅀ ㅁ ㅂ ㅃ ㅄ ㅅ ㅆ ㅇ ㅈ
      ㅉ ㅊ ㅋ ㅌ ㅍ ㅎ � � � ㅏ ㅐ ㅑ ㅒ ㅓ ㅔ � � ㅕ ㅖ ㅗ ㅘ ㅙ ㅚ � � ㅛ ㅜ ㅝ ㅞ ㅟ ㅠ � � ㅡ ㅢ ㅣ � � � ¢ £ ¬ ¯ ¦ ¥ ₩
      � │ ← ↑ → ↓ ■ ○"),
    (0x10781, "ː ˑ æ ʙ ɓ � ʣ ꭦ ʥ ʤ ɖ ɗ ᶑ ɘ ɞ ʩ ɤ ɢ ɠ ʛ ħ ʜ ɧ ʄ ʪ ʫ ɬ 𝼄 ꞎ ɮ 𝼅 ʎ 𝼆 ø ɶ ɷ q ɺ 𝼈 ɽ ɾ
      ʀ ʨ ʦ ꭧ ʧ ʈ ⱱ � ʏ ʡ ʢ ʘ ǀ ǁ ǂ 𝼊 𝼞"),
    (0x1D400, "A–Z a–z A–Z a–g � i–z A–Z a–z A � C D �*2 G �*2 J K �*2 N–Q � S–Z a–d � f � h–n �
      p–z A–Z a–z A B � D–G �*2 J–Q � S–Y � a–z A B � D–G � I–M � O �*3 S–Y � a–z A–Z a–z A–Z a–z
      A–Z a–z A–Z a–z A–Z a–z A–Z a–z ı ȷ �*2 Α–Ρ ϴ Σ–Ω ∇ α–ω ∂ ϵ ϑ ϰ ϕ ϱ ϖ Α–Ρ ϴ Σ–Ω ∇ α–ω ∂ ϵ ϑ
      ϰ ϕ ϱ ϖ Α–Ρ ϴ Σ–Ω ∇ α–ω ∂ ϵ ϑ ϰ ϕ ϱ ϖ Α–Ρ ϴ Σ–Ω ∇ α–ω ∂ ϵ ϑ ϰ ϕ ϱ ϖ Α–Ρ ϴ Σ–Ω ∇ α–ω ∂ ϵ ϑ ϰ
      ϕ ϱ ϖ Ϝ ϝ �*2 0–9*5"),
    (0x1E030, "а–и к л м о–ш ы э ю ꚉ ә і ј ө ү ӏ а–и к л о п с у–ш ъ ы ґ і ѕ џ ҫ ꙑ ұ"),
    (0x1EE00, "ا ب ج د � و ز ح ط ي ك–ن س ع ف ص ق ر ش ت ث خ ذ ض ظ غ ٮ ں ڡ ٯ � ب ج � ه �*2 ح � ي
      ك–ن س ع ف ص ق � ش ت ث خ � ض � غ"),
    (0x1EE42, "ج �*4 ح � ي � ل � ن س ع � ص ق � ش �*2 خ � ض � غ � ں � ٯ � ب ج � ه �*2 ح ط ي ك � م
      ن س ع ف ص ق � ش ت ث خ � ض ظ غ ٮ � ڡ � ا ب ج د ه و ز ح ط ي � ل م ن س ع ف ص ق ر ش ت ث خ ذ ض ظ
      غ"),
    (0x1EEA1, "ب ج د � و ز ح ط ي � ل م ن س ع ف ص ق ر ش ت ث خ ذ ض ظ غ"),
    (0x1F100, "0. 0, 1, 2, 3, 4, 5, 6, 7, 8, 9,"),
    (0x1F110, "(A) (B) (C) (D) (E) (F) (G) (H) (I) (J) (K) (L) (M) (N) (O) (P) (Q) (R) (S) (T)
      (U) (V) (W) (X) (Y) (Z) 〔S〕 C R CD WZ � A–Z HV MV SD SS PPV WC"),
    (0x1F16A, "MC MD MR"), (0x1F190, "DJ"), (0x1F200, "ほか ココ サ"),
    (0x1F210, "手 字 双 デ 二 多 解 天 交 映 無 料 前 後 再 新 初 終 生 販 声 吹 演 投 捕 一 三 遊 左 中 右 指 走 打 禁 空 合 満 有 月 申
      割 営 配 �*4 〔本〕 〔三〕 〔二〕 〔安〕 〔点〕 〔打〕 〔盗〕 〔勝〕 〔敗〕"),
    (0x1F250, "得 可"), (0x1FBF0, "0 1 2 3 4 5 6 7 8 9")]

/-- The classes of combining marks: gap, length, class. -/
def markTable : String :=
  "768 21 230 0 1 232 0 4 220 0 1 232 0 1 216 0 5 220 0 2 202 0 4 220 0 2 202 0 11 220 0 5 1 0
  4 220 0 8 230 0 1 240 0 1 230 0 3 220 0 3 230 0 2 220 1 3 230 0 4 220 0 1 230 0 1 232 0 2
  220 0 1 230 0 1 233 0 2 234 0 1 233 0 2 234 0 1 233 0 13 230 275 5 230 265 1 220 0 4 230 0 1
  220 0 3 230 0 1 222 0 1 220 0 6 230 0 6 220 0 2 230 0 1 220 0 2 230 0 1 222 0 1 228 0 1 230
  0 1 10 0 1 11 0 1 12 0 1 13 0 1 14 0 1 15 0 1 16 0 1 17 0 1 18 0 2 19 0 1 20 0 1 21 0 1 22 1
  1 23 1 1 24 0 1 25 1 1 230 0 1 220 1 1 18 72 8 230 0 1 30 0 1 31 0 1 32 48 1 27 0 1 28 0 1
  29 0 1 30 0 1 31 0 1 32 0 1 33 0 1 34 0 2 230 0 2 220 0 5 230 0 1 220 0 2 230 0 1 220 16 1
  35 101 7 230 2 4 230 0 1 220 0 1 230 2 2 230 1 1 220 0 2 230 0 1 220 35 1 36 30 1 230 0 1
  220 0 2 230 0 1 220 0 2 230 0 3 220 0 1 230 0 2 220 0 1 230 0 1 220 0 3 230 0 1 220 0 1 230
  0 1 220 0 1 230 0 1 220 0 1 230 0 1 220 0 2 230 160 7 230 0 1 220 0 1 230 9 1 220 24 4 230 1
  9 230 1 3 230 1 5 230 43 3 220 60 1 230 0 3 220 0 4 230 42 5 230 0 5 220 0 14 230 1 1 220 0
  2 230 0 1 220 0 2 230 0 1 220 0 3 230 0 3 220 0 1 27 0 1 28 0 1 29 0 3 230 0 1 220 0 2 230 0
  2 220 0 5 230 60 1 7 16 1 9 3 1 230 0 1 220 0 2 230 103 1 7 16 1 9 48 1 230 61 1 7 16 1 9
  110 1 7 16 1 9 110 1 7 16 1 9 127 1 9 110 1 7 16 1 9 7 1 84 0 1 91 101 1 7 16 1 9 109 2 9 16
  1 9 124 1 9 109 2 103 0 1 9 13 4 107 108 2 118 0 1 9 13 4 122 76 2 220 27 1 220 1 1 220 1 1
  216 55 1 129 0 1 130 1 1 132 5 4 130 2 1 130 1 2 230 0 1 9 1 2 230 62 1 220 112 1 7 1 2 9 82
  1 220 719 3 230 948 2 9 30 1 9 157 1 9 10 1 230 203 1 228 143 1 222 0 1 230 0 1 220 219 1
  230 0 1 220 71 1 9 20 8 230 2 1 220 48 5 230 0 6 220 0 2 230 0 1 220 1 2 220 0 2 230 0 2 220
  0 5 230 0 1 220 0 4 230 101 1 7 15 1 9 38 1 230 0 1 220 0 7 230 54 2 9 58 1 7 11 2 9 67 1 7
  152 3 230 1 1 1 0 5 220 0 2 230 0 4 220 0 1 230 1 7 1 4 1 220 6 1 230 3 2 230 198 2 230 0 1
  220 0 7 230 0 1 220 0 2 230 0 1 234 0 1 214 0 1 220 0 1 202 0 37 230 0 1 232 0 2 228 0 1 220
  0 1 218 0 1 230 0 1 233 0 1 220 0 1 230 0 1 220 720 2 230 0 2 1 0 4 230 0 3 1 0 2 230 4 1
  230 3 2 1 0 1 230 0 1 220 0 1 230 0 2 1 0 4 220 0 1 230 3070 3 230 141 1 9 96 32 230 554 1
  218 0 1 228 0 1 232 0 1 222 0 2 224 105 2 8 30164 1 230 4 10 230 32 2 230 80 2 230 276 1 9
  37 1 9 151 1 9 27 18 230 57 3 220 37 1 9 95 1 7 12 1 9 239 1 230 1 2 230 0 1 220 2 2 230 5 2
  230 1 1 230 52 1 9 246 1 9 20272 1 26 769 7 230 0 7 220 0 2 230 973 1 220 226 1 220 149 5
  230 1682 1 220 1 1 230 40 1 230 0 1 1 0 1 220 4 1 9 165 1 230 0 1 220 573 4 230 387 2 230 80
  3 220 70 2 220 0 3 230 0 1 220 0 1 230 0 4 220 49 1 230 0 1 220 0 1 230 0 1 220 192 1 9 41 1
  9 14 1 9 57 1 9 0 1 7 69 3 230 48 2 9 62 1 7 76 1 9 9 1 7 106 1 9 0 1 7 178 1 7 0 1 9 80 2 7
  16 1 9 24 7 230 3 5 230 205 1 9 3 1 7 23 1 230 99 1 9 0 1 7 251 1 9 0 1 7 126 1 9 118 1 9 0
  1 7 115 1 9 269 1 9 0 1 7 258 2 9 4 1 7 156 1 9 83 1 9 18 1 9 81 1 9 421 1 9 258 1 7 1 2 9
  81 1 9 425 2 9 19373 5 1 59 7 230 1209 2 6 19628 1 1 5318 2 216 0 3 1 3 1 226 0 5 216 8 8
  220 2 5 230 0 2 220 30 4 230 148 3 230 3515 7 230 1 17 230 2 7 230 1 2 230 1 5 230 100 1 230
  160 7 230 375 1 230 61 4 230 508 2 232 0 1 220 0 1 230 992 7 220 109 6 230 0 1 7"

end ScriptEngine.Text
